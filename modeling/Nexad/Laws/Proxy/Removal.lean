import Nexad.Laws.Proxy.Nginx
import Nexad.Laws.Proxy.Traefik
import Nexad.Proxy.Backend

/-!
# What a removal leaves

After a successful `remove_route` nothing of the domain is left on disk, whatever
the file operations did (`removal_removes_iff`), but for one case: nexa-proxy
takes every failure to read its file for a file that is not there, and reports
success with the file as it was.

For Caddy this is a fact about lines: what the scan keeps opens no block of the
domain, and trimming the end of the file makes no line that does
(`withoutBlock_noBlock`).
-/

namespace Nexad.Proxy

open Interleave

namespace CaddyBackend

/-! ## The lines that Caddy keeps -/

/-- The line opens a block of the domain as `apply_routes` writes it. -/
def HeaderLine (domain : String) (line : List Char) : Prop :=
  Text.trim line = (domain ++ " \x7b").toList ∨ Text.trim line = ("http://" ++ domain ++ " \x7b").toList

/-- No line of the file opens a block of the domain. -/
def NoBlock (domain content : String) : Prop :=
  ∀ line ∈ Lines.lines content.toList, ¬ HeaderLine domain line

/-- The scan takes such a line for what it is. -/
theorem HeaderLine.opensBlock {domain : String} {line : List Char} (h : HeaderLine domain line) :
    opensBlock domain line = true := by
  have hsplit : " \x7b" = " " ++ "\x7b" := by decide
  have hbrace : ∀ s : String, (s ++ "\x7b").toList.getLast? = some '\x7b' := by
    intro s
    have hlist : "\x7b".toList = ['\x7b'] := rfl
    rw [String.toList_append, hlist, List.getLast?_concat]
  have hstart : ∀ s : String, s.toList.isPrefixOf (s ++ "\x7b").toList = true := by
    intro s
    rw [String.toList_append]
    exact List.isPrefixOf_iff_prefix.mpr (List.prefix_append _ _)
  unfold CaddyBackend.opensBlock
  rcases h with h | h
  · rw [hsplit, ← String.append_assoc] at h
    simp only [h, hbrace, hstart, Bool.true_or, decide_true, Bool.and_true]
  · rw [hsplit, ← String.append_assoc] at h
    simp only [h, hbrace, hstart, Bool.true_or, Bool.or_true, decide_true, Bool.and_true]

/-- What the scan has kept: lines that open no block of the domain. -/
def Keeps (domain : String) (scan : Scan) : Prop :=
  ∃ kept : List (List Char), scan.result = kept.flatMap (fun line => line ++ ['\n']) ∧
    ∀ line ∈ kept, '\n' ∉ line ∧ opensBlock domain line = false

/-- A line is kept, or leaves what is kept as it was. -/
theorem scanLine_keeps {domain : String} {scan : Scan} (h : Keeps domain scan) {line : List Char}
    (hline : '\n' ∉ line) : Keeps domain (scanLine domain scan line) := by
  unfold scanLine
  split
  · exact h
  · next hopens =>
    split
    · exact h
    · next hskip =>
      obtain ⟨kept, hresult, hkept⟩ := h
      have hopens' : opensBlock domain line = false := by
        rw [Bool.and_eq_true, not_and] at hopens
        exact Bool.eq_false_iff.mpr (hopens (by simpa using hskip))
      refine ⟨kept ++ [line], ?_, fun l hl => ?_⟩
      · rw [List.flatMap_append, List.flatMap_singleton, ← hresult]
        exact List.append_assoc ..
      · rcases List.mem_append.mp hl with hl | hl
        · exact hkept l hl
        · rw [List.mem_singleton.mp hl]
          exact ⟨hline, hopens'⟩

theorem foldl_scanLine_keeps {domain : String} {ls : List (List Char)} (hls : ∀ line ∈ ls, '\n' ∉ line)
    {scan : Scan} (h : Keeps domain scan) : Keeps domain (ls.foldl (scanLine domain) scan) := by
  induction ls generalizing scan with
  | nil => exact h
  | cons line ls ih =>
    exact ih (fun l hl => hls l (List.mem_cons_of_mem _ hl))
      (scanLine_keeps h (hls line List.mem_cons_self))

theorem newline_blank : ∀ c ∈ ['\n'], Text.isWhiteSpace c = true := by
  intro c hc
  rw [List.mem_singleton.mp hc]
  decide

/-- Lines without the white space at their end are lines that look the same,
up to the last one that is not blank. -/
theorem trimEnd_lines (kept : List (List Char)) :
    Text.trimEnd (kept.flatMap fun line => line ++ ['\n']) = [] ∨
      ∃ left : List (List Char), Text.trimEnd (kept.flatMap fun line => line ++ ['\n']) ++ ['\n'] =
          left.flatMap (fun line => line ++ ['\n']) ∧
        ∀ line ∈ left, ∃ line' ∈ kept, Text.trim line = Text.trim line' ∧ line <+: line' := by
  induction kept using List.reverseRecOn with
  | nil => exact .inl rfl
  | append_singleton kept last ih =>
    rw [List.flatMap_append, List.flatMap_singleton, ← List.append_assoc,
      Text.trimEnd_append _ newline_blank]
    by_cases hblank : Text.trimEnd last = []
    · have hall : ∀ c ∈ last, Text.isWhiteSpace c = true := List.rdropWhile_eq_nil_iff.mp hblank
      rw [Text.trimEnd_append _ hall]
      rcases ih with hnil | ⟨left, hleft, hlook⟩
      · exact .inl hnil
      · refine .inr ⟨left, hleft, fun line hline => ?_⟩
        obtain ⟨line', hline', hsame⟩ := hlook line hline
        exact ⟨line', List.mem_append_left _ hline', hsame⟩
    · refine .inr ⟨kept ++ [Text.trimEnd last], ?_, fun line hline => ?_⟩
      · rw [Text.trimEnd_append_of_ne hblank, List.flatMap_append, List.flatMap_singleton,
          List.append_assoc]
      · rcases List.mem_append.mp hline with hline | hline
        · exact ⟨line, List.mem_append_left _ hline, rfl, List.prefix_refl _⟩
        · rw [List.mem_singleton.mp hline]
          exact ⟨last, List.mem_append_right _ List.mem_cons_self, Text.trim_trimEnd last,
            List.rdropWhile_prefix ..⟩

/-- The end of a line is white space. -/
theorem trim_chomp (line : List Char) : Text.trim (Lines.chomp (line ++ ['\n'])) = Text.trim line := by
  obtain ⟨ending, hpiece, hending⟩ := Lines.exists_chomp (line ++ ['\n'])
  have hblank : ∀ c ∈ ending, Text.isWhiteSpace c = true := by
    intro c hc
    rcases hending c hc with rfl | rfl
    · decide
    · decide
  have htrim := Text.trim_append (Lines.chomp (line ++ ['\n'])) hblank
  rw [← hpiece, Text.trim_append _ newline_blank] at htrim
  exact htrim.symm

/-- The file that is written back has no block of the domain. -/
theorem withoutBlock_noBlock (domain content : String) : NoBlock domain (withoutBlock domain content) := by
  have hkeeps : Keeps domain ((Lines.lines content.toList).foldl (scanLine domain) ⟨[], false, 0⟩) :=
    foldl_scanLine_keeps (fun line hline => Lines.newline_notMem hline)
      ⟨[], rfl, fun line hline => absurd hline List.not_mem_nil⟩
  obtain ⟨kept, hresult, hkept⟩ := hkeeps
  unfold withoutBlock
  dsimp only
  rw [hresult]
  split
  · exact fun line hline => absurd hline List.not_mem_nil
  · next hne =>
    rcases trimEnd_lines kept with hnil | ⟨left, hleft, hlook⟩
    · exact absurd hnil hne
    · have hlines : ∀ line ∈ left, '\n' ∉ line := by
        intro line hline hmem
        obtain ⟨line', hline', -, hstart⟩ := hlook line hline
        exact (hkept line' hline').1 (hstart.subset hmem)
      unfold NoBlock
      rw [String.toList_ofList, hleft, Lines.lines_flatMap hlines]
      intro line hline hheader
      obtain ⟨line, hmem, rfl⟩ := List.mem_map.mp hline
      obtain ⟨line', hline', hsame, -⟩ := hlook line hmem
      have hlook' : Text.trim (Lines.chomp (line ++ ['\n'])) = Text.trim line' := by
        rw [trim_chomp, hsame]
      have hheader' : HeaderLine domain line' := by
        rwa [HeaderLine, ← hlook']
      have hopens := hheader'.opensBlock
      rw [(hkept line' hline').2] at hopens
      cases hopens

end CaddyBackend

/-! ## Removals that succeed -/

/-- After a removal that succeeded, there is no file or one without the blocks. -/
theorem CaddyBackend.removeRoute_ok {self : CaddyBackend} {domain : String} {fs fs' : Files}
    (h : (self.removeRoute domain).ExecFiles fs (.ok ()) fs') {content : String}
    (hcontent : fs'.lookup self.caddyfilePath = some content) : NoBlock domain content := by
  cases h with
  | call answered rest =>
    cases answered with
    | readMissing text missing =>
      cases rest
      rw [missing] at hcontent
      cases hcontent
    | readFailed path text => cases rest
    | read found =>
      cases rest with
      | call answered rest =>
        cases answered with
        | write =>
          cases rest
          rw [Finmap.lookup_insert] at hcontent
          cases hcontent
          exact withoutBlock_noBlock domain _
        | writeFailed => cases rest
        | writeTorn => cases rest

/-- Traefik's file has nothing of a domain: neither under its names nor under
another with its rule. -/
structure TraefikBackend.NoRoute (domain : String) (config : TraefikDynamicConfig) : Prop where
  router : config.http.routers.lookup (routerName domain) = none
  service : config.http.services.lookup (serviceName domain) = none
  rule : ∀ name r, config.http.routers.lookup name = some r → r.rule ≠ hostRule domain

theorem TraefikBackend.dropRoute_noRoute (routes : List RouteConfig) (domain : String) :
    NoRoute domain (dropRoute (renderConfig routes) domain) := by
  refine ⟨Finmap.lookup_erase _ _, Finmap.lookup_erase _ _, fun name r hr hrule => ?_⟩
  by_cases hname : name = routerName domain
  · rw [hname, dropRoute, Finmap.lookup_erase] at hr
    cases hr
  · rw [dropRoute, Finmap.lookup_erase_ne hname] at hr
    obtain ⟨route, -, hown, rfl⟩ := router_of_lookup hr
    have hdomain : route.domain = domain := hostRule_injective hrule
    exact hname (hdomain ▸ hown)

/-- The domains of nexa-proxy's file. -/
theorem NexaProxyBackend.mem_buildConfig_iff (self : NexaProxyBackend) (routes : List RouteConfig)
    (domain : String) :
    domain ∈ (self.buildConfig routes).routes ↔ domain ∈ routes.map RouteConfig.domain := by
  rw [← not_iff_not, ← Finmap.lookup_eq_none, buildConfig, Maps.lookup_insertAll_eq_none_iff,
    List.mem_map, not_exists]
  simp only [not_and]

/-- A configuration is written whole, or the call fails. -/
theorem NexaProxyBackend.writeConfigSync_ok {self : NexaProxyBackend} {json : Json}
    {config : NexaProxyConfig} {fs fs' : Files}
    (h : (self.writeConfigSync json config).ExecFiles fs (.ok ()) fs') :
    ∃ text, json.toStringPretty config = .ok text ∧ fs' = fs.insert self.configPath text := by
  unfold writeConfigSync at h
  split at h
  · cases h
  · next text htext =>
    cases h with
    | call answered rest =>
      cases answered with
      | write =>
        cases rest
        exact ⟨text, htext, rfl⟩
      | writeFailed => cases rest
      | writeTorn => cases rest

namespace ProxyBackend

/-- No entry for the domain is left on disk: no file of its own, no block, no
router or service, no route. -/
def NoEntry (domain : String) (fs : Files) : ProxyBackend → Prop
  | .nginx backend => backend.confPath domain ∉ fs
  | .caddy backend => ∀ content, fs.lookup backend.caddyfilePath = some content →
      CaddyBackend.NoBlock domain content
  | .traefik backend yaml => ∀ content config, fs.lookup backend.configPath = some content →
      yaml.fromStr content = .ok config → TraefikBackend.NoRoute domain config
  | .nexaProxy backend json => ∀ content config, fs.lookup backend.configPath = some content →
      json.fromStr content = .ok config → domain ∉ config.routes

/-- The two configurations of a removal are read back as they are written. -/
def RoundTrips (routes : List RouteConfig) (domain : String) : ProxyBackend → Prop
  | .nginx _ => True
  | .caddy _ => True
  | .traefik _ yaml => yaml.RoundTrips (TraefikBackend.renderConfig routes) ∧
      yaml.RoundTrips (TraefikBackend.dropRoute (TraefikBackend.renderConfig routes) domain)
  | .nexaProxy backend json => json.RoundTrips (backend.buildConfig routes) ∧
      json.RoundTrips (NexaProxyBackend.dropRoute (backend.buildConfig routes) domain)

/-- It takes every failure to read its file for a file that is not there. -/
def IgnoresReadErrors : ProxyBackend → Prop
  | .nexaProxy _ _ => True
  | _ => False

private theorem noReads_ite {α : Type} (c : Bool) (a b : α) :
    Prog.NoReads (if c then .ret a else .ret b) := by
  split
  · exact trivial
  · exact trivial

/-- A file is written, and then there is an answer. -/
private theorem noReads_write {α : Type} (path text : String) {k : Except IoError Unit → Prog fileSig α}
    (hk : ∀ ans, (k ans).NoReads) : Prog.NoReads (.call (σ := fileSig) (.write path text) k) :=
  ⟨fun _ h => (by cases h), hk⟩

private theorem noReads_writeConfigSync (backend : NexaProxyBackend) (json : Json)
    (config : NexaProxyConfig) : (backend.writeConfigSync json config).NoReads := by
  unfold NexaProxyBackend.writeConfigSync
  split
  · exact trivial
  · refine noReads_write _ _ fun ans => ?_
    split
    · exact trivial
    · exact trivial

/-- Every run of a removal has its read refused, or has not. -/
theorem exists_refusing (backend : ProxyBackend) {domain : String} {fs fs' : Files}
    {result : Except ProxyError Unit} (h : (backend.removeRoute domain).ExecFiles fs result fs') :
    ∃ refused, (backend.removeRoute domain).ExecRefusing refused fs result fs' := by
  cases backend with
  | nginx backend =>
    refine ⟨False, Prog.execRefusing_of_noReads False ⟨fun _ h => (by cases h), fun ans => ?_⟩ h⟩
    rcases ans with e | _
    · exact noReads_ite _ _ _
    · exact trivial
  | caddy backend =>
    refine Prog.exists_execRefusing (fun ans => ?_) h
    split
    · exact noReads_ite _ _ _
    · refine noReads_write _ _ fun ans => ?_
      split
      · exact trivial
      · exact trivial
  | traefik backend yaml =>
    refine Prog.exists_execRefusing (fun ans => ?_) h
    split
    · exact noReads_ite _ _ _
    · split
      · exact trivial
      · split
        · exact trivial
        · refine noReads_write _ _ fun ans => ?_
          split
          · exact trivial
          · exact trivial
  | nexaProxy backend json =>
    refine Prog.exists_execRefusing (fun ans => ?_) h
    split
    · exact trivial
    · split
      · exact trivial
      · exact noReads_writeConfigSync backend json _

/-- Traefik's file after a list of routes and a removal. -/
private theorem traefik_noEntry (backend : TraefikBackend) {yaml : Yaml} {routes : List RouteConfig}
    {domain : String} {fs₀ fs fs' : Files} (htrips : (traefik backend yaml).RoundTrips routes domain)
    (happly : (backend.applyRoutes yaml routes).ExecFiles fs₀ (.ok ()) fs)
    (hremove : (backend.removeRoute yaml domain).ExecFiles fs (.ok ()) fs') :
    (traefik backend yaml).NoEntry domain fs' := by
  obtain ⟨⟨whole, hwhole, hread⟩, rest, hrest, hread'⟩ := htrips
  obtain ⟨text, htext, rfl⟩ := (backend.applyRoutes_ok_iff yaml routes fs₀ fs).mp happly
  cases hwhole.symm.trans htext
  obtain ⟨text', htext', rfl⟩ := (backend.removeRoute_ok_iff yaml domain
    (Finmap.lookup_insert _) hread).mp hremove
  cases hrest.symm.trans htext'
  intro content config hcontent hconfig
  rw [Finmap.lookup_insert] at hcontent
  cases hcontent
  cases hread'.symm.trans hconfig
  exact TraefikBackend.dropRoute_noRoute routes domain

/-- nexa-proxy's, if its read was refused: it is as it was. -/
private theorem nexaProxy_refused {backend : NexaProxyBackend} {json : Json} {routes : List RouteConfig}
    {domain text : String} {fs : Files} (hfile : fs.lookup backend.configPath = some text)
    (hread : json.fromStr text = .ok (backend.buildConfig routes)) :
    (nexaProxy backend json).NoEntry domain fs ↔ domain ∉ routes.map RouteConfig.domain := by
  rw [← backend.mem_buildConfig_iff routes domain]
  constructor
  · exact fun h => h _ _ hfile hread
  · intro hnone content config hcontent hconfig
    cases hfile.symm.trans hcontent
    cases hread.symm.trans hconfig
    exact hnone

/-- If it was not: the route is dropped. -/
private theorem nexaProxy_dropped {backend : NexaProxyBackend} {json : Json} {config : NexaProxyConfig}
    {domain : String} {fs fs' : Files} (htrips : json.RoundTrips (NexaProxyBackend.dropRoute config domain))
    (hwrite : (backend.writeConfigSync json (NexaProxyBackend.dropRoute config domain)).ExecFiles fs
      (.ok ()) fs') : (nexaProxy backend json).NoEntry domain fs' := by
  obtain ⟨rest, hrest, hread⟩ := htrips
  obtain ⟨text, htext, rfl⟩ := NexaProxyBackend.writeConfigSync_ok hwrite
  cases hrest.symm.trans htext
  intro content config' hcontent hconfig
  rw [Finmap.lookup_insert] at hcontent
  cases hcontent
  cases hread.symm.trans hconfig
  exact Finmap.notMem_erase_self

/-- nexa-proxy's file after a list of routes and a removal. -/
private theorem nexaProxy_noEntry_iff (backend : NexaProxyBackend) {json : Json}
    {routes : List RouteConfig} {domain : String} {refused : Prop} {fs₀ fs fs' : Files}
    (htrips : (nexaProxy backend json).RoundTrips routes domain)
    (happly : (backend.applyRoutes json routes).ExecFiles fs₀ (.ok ()) fs)
    (hremove : (backend.removeRoute json domain).ExecRefusing refused fs (.ok ()) fs') :
    (nexaProxy backend json).NoEntry domain fs' ↔
      ¬ (refused ∧ domain ∈ routes.map RouteConfig.domain) := by
  obtain ⟨⟨whole, hwhole, hread⟩, hrest⟩ := htrips
  obtain ⟨text, htext, rfl⟩ := NexaProxyBackend.writeConfigSync_ok happly
  cases hwhole.symm.trans htext
  have hfile : (fs₀.insert backend.configPath whole).lookup backend.configPath = some whole :=
    Finmap.lookup_insert _
  cases hremove with
  | call answered rest =>
    obtain ⟨answered, hrefused⟩ := answered
    have hrefused := hrefused _ rfl
    cases answered with
    | read found =>
      cases hfile.symm.trans found
      simp only [hread] at rest
      exact iff_of_true (nexaProxy_dropped hrest (Prog.ExecRefusing.execFiles rest))
        fun h => hrefused.mpr h.1
    | readMissing text missing =>
      rw [hfile] at missing
      cases missing
    | readFailed path text =>
      cases rest
      have hyes : refused := hrefused.mp rfl
      rw [nexaProxy_refused hfile hread, not_and]
      exact ⟨fun h _ => h, fun h => h hyes⟩

/-- After `apply_routes` and then `remove_route` of a domain, both successful, no
entry for the domain is left, exactly unless the backend ignores that its file
cannot be read, that happened, and the domain had a route. -/
theorem removal_removes_iff (backend : ProxyBackend) {routes : List RouteConfig} {domain : String}
    {apply : Prog fileSig (Except ProxyError Unit)} {fs₀ fs : Files}
    (htrips : backend.RoundTrips routes domain) (hprogram : backend.applyRoutes routes = .ok apply)
    (happly : apply.ExecFiles fs₀ (.ok ()) fs) :
    (∀ fs', (backend.removeRoute domain).ExecFiles fs (.ok ()) fs' →
        ∃ refused, (backend.removeRoute domain).ExecRefusing refused fs (.ok ()) fs') ∧
      ∀ refused fs', (backend.removeRoute domain).ExecRefusing refused fs (.ok ()) fs' →
        (backend.NoEntry domain fs' ↔
          ¬ (backend.IgnoresReadErrors ∧ refused ∧ domain ∈ routes.map RouteConfig.domain)) := by
  refine ⟨fun fs' h => backend.exists_refusing h, fun refused fs' h => ?_⟩
  cases backend with
  | nginx backend =>
    refine iff_of_true ?_ fun h => h.1
    rw [NoEntry, (backend.removeRoute_ok_iff domain fs fs').mp h.execFiles]
    exact Finmap.notMem_erase_self
  | caddy backend =>
    exact iff_of_true (fun content hcontent => CaddyBackend.removeRoute_ok h.execFiles hcontent)
      fun h => h.1
  | traefik backend yaml =>
    cases hprogram
    exact iff_of_true (traefik_noEntry backend htrips happly h.execFiles) fun h => h.1
  | nexaProxy backend json =>
    cases hprogram
    rw [nexaProxy_noEntry_iff backend htrips happly h, IgnoresReadErrors, true_and]

/-- Reading and writing of two configurations and their texts. -/
private def jsonOf (config config' : NexaProxyConfig) (text text' : String) : Json where
  toStringPretty c := if c = config then .ok text else if c = config' then .ok text' else .error "unknown"
  fromStr t := if t = text then .ok config else if t = text' then .ok config' else .error "unknown"

private theorem jsonOf_trips {config config' : NexaProxyConfig} {text text' : String}
    (hconfig : config' ≠ config) (htext : text' ≠ text) :
    ((jsonOf config config' text text').toStringPretty config = .ok text ∧
        (jsonOf config config' text text').fromStr text = .ok config) ∧
      (jsonOf config config' text text').toStringPretty config' = .ok text' ∧
        (jsonOf config config' text text').fromStr text' = .ok config' := by
  simp [jsonOf, hconfig, htext]

/-- A nexa-proxy with a route, and the file that it makes. -/
def appProxy : NexaProxyBackend := ⟨"/etc/nexa/proxy.json", "0.0.0.0:80", none⟩

def appRoutes : List RouteConfig := [⟨"app.example", [⟨"10.0.0.1:80", 1⟩], .none⟩]

def appText : String :=
  "\x7b\n  \"http_listen\": \"0.0.0.0:80\",\n  \"routes\": \x7b\n    \"app.example\": \x7b\n" ++
  "      \"upstreams\": [\n        \x7b\n          \"address\": \"10.0.0.1:80\",\n" ++
  "          \"weight\": 1\n        \x7d\n      ]\n    \x7d\n  \x7d\n\x7d"

/-- The file without the route. -/
def noRoutesText : String := "\x7b\n  \"http_listen\": \"0.0.0.0:80\",\n  \"routes\": \x7b\x7d\n\x7d"

def appJson : Json :=
  jsonOf (appProxy.buildConfig appRoutes)
    (NexaProxyBackend.dropRoute (appProxy.buildConfig appRoutes) "app.example") appText noRoutesText

theorem appJson_trips :
    (appJson.toStringPretty (appProxy.buildConfig appRoutes) = .ok appText ∧
        appJson.fromStr appText = .ok (appProxy.buildConfig appRoutes)) ∧
      appJson.toStringPretty
          (NexaProxyBackend.dropRoute (appProxy.buildConfig appRoutes) "app.example") =
        .ok noRoutesText ∧
        appJson.fromStr noRoutesText =
          .ok (NexaProxyBackend.dropRoute (appProxy.buildConfig appRoutes) "app.example") := by
  refine jsonOf_trips (fun h => ?_) (by decide)
  have hlookup := congrArg (fun config => config.routes.lookup "app.example") h
  exact absurd hlookup (by decide)

/-- What is on disk after the route was applied. -/
def appFiles : Files := (∅ : Files).insert appProxy.configPath appText

private theorem appProxy_applied : (appProxy.applyRoutes appJson appRoutes).ExecFiles ∅ (.ok ()) appFiles := by
  rw [NexaProxyBackend.applyRoutes, NexaProxyBackend.writeConfigSync, appJson_trips.1.1]
  exact .call (.write _ _) (.ret _ _)

/-- A file that can be read. -/
theorem removal_removes_app : ∃ fs',
    (appProxy.removeRoute appJson "app.example").ExecFiles appFiles (.ok ()) fs' ∧
    (nexaProxy appProxy appJson).NoEntry "app.example" fs' := by
  obtain ⟨⟨hwrite, hread⟩, hwrite', hread'⟩ := appJson_trips
  have hremove : (appProxy.removeRoute appJson "app.example").ExecRefusing False appFiles (.ok ())
      (appFiles.insert appProxy.configPath noRoutesText) := by
    refine .call ⟨.read (Finmap.lookup_insert _), fun _ _ => Iff.rfl⟩ ?_
    simp only [hread]
    refine Prog.execRefusing_of_noReads _ (noReads_writeConfigSync _ _ _) ?_
    rw [NexaProxyBackend.writeConfigSync, hwrite']
    exact .call (.write _ _) (.ret _ _)
  have htrips : (nexaProxy appProxy appJson).RoundTrips appRoutes "app.example" :=
    ⟨⟨_, hwrite, hread⟩, _, hwrite', hread'⟩
  exact ⟨_, hremove.execFiles,
    ((removal_removes_iff (nexaProxy appProxy appJson) htrips rfl appProxy_applied).2 _ _
      hremove).mpr fun h => h.2.1⟩

/-- A file that cannot be read: the removal succeeds, and the route is still there. -/
theorem removal_ignores_read_error : ∃ fs',
    (appProxy.applyRoutes appJson appRoutes).ExecFiles ∅ (.ok ()) appFiles ∧
    (appProxy.removeRoute appJson "app.example").ExecFiles appFiles (.ok ()) fs' ∧
    ¬ (nexaProxy appProxy appJson).NoEntry "app.example" fs' := by
  refine ⟨_, appProxy_applied, .call (.readFailed _ "Permission denied") (.ret _ _), fun h => ?_⟩
  exact h appText _ (Finmap.lookup_insert _) appJson_trips.1.2 (by decide)

end ProxyBackend

end Nexad.Proxy
