import Mathlib
import Nexad.Base.Results
import Nexad.Laws.Proxy.Removal

/-!
# The nexa-proxy file over runs

`remove_route` reads what `build_config` wrote, drops a domain and writes the
rest back. The derived serializers read back whatever they write
(`fromJson_toJson`), so nothing is lost on the way, and the file says after every
run what the table of routes does (`config_follows_table`).
-/

namespace Nexad.Proxy

open Interleave JsonValue Results

/-! ## Reading back what was written -/

theorem NexaProxyUpstream.fromJson_toJson (u : NexaProxyUpstream) : fromJson u.toJson = .ok u := by
  have hweight : readU32 (number u.weight.toNat) = .ok u.weight := by
    rw [readU32, if_pos u.weight.toNat_lt, UInt32.ofNat_toNat]
  have hfields : fromJson u.toJson = (do
      let weight ← readU32 (number u.weight.toNat)
      return ⟨u.address, weight⟩) := rfl
  rw [hfields, hweight]
  rfl

theorem NexaProxyTls.fromJson_toJson (tls : NexaProxyTls) : fromJson tls.toJson = .ok tls := by
  obtain ⟨certPath, keyPath, acmeEmail⟩ := tls
  cases certPath <;> cases keyPath <;> cases acmeEmail <;> rfl

theorem NexaProxyRoute.fromJson_toJson (route : NexaProxyRoute) : fromJson route.toJson = .ok route := by
  obtain ⟨upstreams, tls⟩ := route
  have hupstreams := mapM_map_eq_ok NexaProxyUpstream.fromJson_toJson upstreams
  cases tls with
  | none =>
    have hfields : fromJson (toJson ⟨upstreams, none⟩) = (do
        let upstreams ← (upstreams.map NexaProxyUpstream.toJson).mapM NexaProxyUpstream.fromJson
        return ⟨upstreams, none⟩) := rfl
    rw [hfields, hupstreams]
    rfl
  | some tls =>
    have hfields : fromJson (toJson ⟨upstreams, some tls⟩) = (do
        let upstreams ← (upstreams.map NexaProxyUpstream.toJson).mapM NexaProxyUpstream.fromJson
        let tls ← (do return some (← NexaProxyTls.fromJson tls.toJson))
        return ⟨upstreams, tls⟩) := rfl
    rw [hfields, hupstreams, NexaProxyTls.fromJson_toJson]
    rfl

/-- The entries are those of the map, each once. -/
structure Enumerates {β : Type} (entries : List (String × β)) (m : Finmap fun _ : String => β) : Prop where
  nodup : (entries.map Prod.fst).Nodup
  mem_iff : ∀ k b, (k, b) ∈ entries ↔ m.lookup k = some b

/-- What a map's entries are inserted into is the map. -/
theorem Enumerates.insertAll {β : Type} {entries : List (String × β)} {m : Finmap fun _ : String => β}
    (h : Enumerates entries m) : Maps.insertAll Prod.fst Prod.snd entries ∅ = m := by
  refine Finmap.ext_lookup fun k => ?_
  cases hk : m.lookup k with
  | none =>
    refine Maps.lookup_insertAll_eq_none_iff.mpr ?_
    rintro ⟨k', b⟩ hentry rfl
    rw [(h.mem_iff k' b).mp hentry] at hk
    cases hk
  | some b =>
    have hentry := (h.mem_iff k b).mpr hk
    refine Maps.lookup_insertAll_of_unique hentry fun entry hentry' hkey => ?_
    exact List.inj_on_of_nodup_map h.nodup hentry' hentry hkey

/-- The configuration is read back from the document it is written as. -/
theorem NexaProxyConfig.fromJson_toJson
    {entries : (Finmap fun _ : String => NexaProxyRoute) → List (String × NexaProxyRoute)}
    (config : NexaProxyConfig) (h : Enumerates (entries config.routes) config.routes) :
    fromJson (config.toJson entries) = .ok config := by
  obtain ⟨httpListen, httpsListen, routes⟩ := config
  have hentry : ∀ entry : String × NexaProxyRoute, readEntry (entry.1, entry.2.toJson) = .ok entry := by
    intro entry
    rw [readEntry, NexaProxyRoute.fromJson_toJson]
    rfl
  have hroutes := mapM_map_eq_ok hentry (entries routes)
  have hfields : fromJson (toJson entries ⟨httpListen, httpsListen, routes⟩) = (do
      let entries ← ((entries routes).map fun entry => (entry.1, entry.2.toJson)).mapM readEntry
      return ⟨httpListen, httpsListen, Maps.insertAll Prod.fst Prod.snd entries ∅⟩) := by
    cases httpsListen <;> rfl
  rw [hfields, hroutes]
  exact congrArg (fun m => Except.ok (⟨httpListen, httpsListen, m⟩ : NexaProxyConfig)) h.insertAll

/-- So a `serde_json` that reads its documents back reads configurations back. -/
theorem Serde.roundTrips {serde : Serde} {config : NexaProxyConfig}
    (hentries : Enumerates (serde.entries config.routes) config.routes)
    (hparse : serde.parse (serde.print (config.toJson serde.entries)) = .ok (config.toJson serde.entries)) :
    serde.json.RoundTrips config := by
  refine ⟨_, rfl, ?_⟩
  show (do NexaProxyConfig.fromJson (← serde.parse (serde.print (config.toJson serde.entries)))) = _
  rw [hparse]
  exact NexaProxyConfig.fromJson_toJson config hentries

/-! ## Runs -/

/-- Some of the calls, and then the others. -/
theorem ProxyBackend.serves_append {before calls : List ProxyCall} {backend : ProxyBackend}
    {fs fs' : Files} (h : backend.Serves fs (before ++ calls) fs') : ∃ fs₁,
      backend.Serves fs before fs₁ ∧ backend.Serves fs₁ calls fs' := by
  induction before generalizing fs with
  | nil => exact ⟨fs, .nil fs, h⟩
  | cons call before ih =>
    cases h with
    | cons renders runs rest =>
      obtain ⟨fs₁, hbefore, hcalls⟩ := ih rest
      exact ⟨fs₁, .cons renders runs hbefore, hcalls⟩

namespace NexaProxyBackend

variable {self : NexaProxyBackend} {json : Json} {fs fs' : Files} {a : Except ProxyError Unit}

/-- The file is read as the configuration. -/
def Holds (self : NexaProxyBackend) (json : Json) (fs : Files) (config : NexaProxyConfig) : Prop :=
  ∃ text, fs.lookup self.configPath = some text ∧ json.fromStr text = .ok config

/-- A configuration that is written is there. -/
theorem holds_written {config : NexaProxyConfig} (htrips : json.RoundTrips config)
    (h : (self.writeConfigSync json config).ExecWell fs a fs') : self.Holds json fs' config := by
  obtain ⟨text, hwrite, hread⟩ := htrips
  rw [writeConfigSync, hwrite] at h
  cases h.write
  exact ⟨text, Finmap.lookup_insert _, hread⟩

/-- A removal drops the route from the configuration that is there. -/
theorem holds_removed {config : NexaProxyConfig} {domain : String}
    (htrips : json.RoundTrips (dropRoute config domain)) (hholds : self.Holds json fs config)
    (h : (self.removeRoute json domain).ExecWell fs a fs') :
    self.Holds json fs' (dropRoute config domain) := by
  obtain ⟨text, htext, hread⟩ := hholds
  obtain ⟨content, hfound, h⟩ := h.read
  rw [htext] at hfound
  cases hfound
  simp only [hread] at h
  exact holds_written htrips h

theorem holds_removals {config : NexaProxyConfig} {removed : List String}
    (htrips : ∀ kept, kept <+: removed → json.RoundTrips (kept.foldl dropRoute config))
    (hholds : self.Holds json fs config)
    (h : (ProxyBackend.nexaProxy self json).Serves fs (removed.map .removeRoute) fs') :
    self.Holds json fs' (removed.foldl dropRoute config) := by
  induction removed generalizing fs config with
  | nil =>
    cases h
    exact hholds
  | cons domain removed ih =>
    cases h with
    | cons renders runs rest =>
      cases renders
      have hfirst : json.RoundTrips (dropRoute config domain) :=
        htrips [domain] (List.prefix_append [domain] removed)
      refine ih (fun kept hkept => ?_) (holds_removed hfirst hholds runs) rest
      exact htrips (domain :: kept) (List.cons_prefix_cons.mpr ⟨rfl, hkept⟩)

theorem foldl_dropRoute (removed : List String) (config : NexaProxyConfig) :
    removed.foldl dropRoute config =
      { config with routes := removed.foldl (fun routes domain => routes.erase domain) config.routes } := by
  induction removed generalizing config with
  | nil => rfl
  | cons domain removed ih => exact ih (dropRoute config domain)

theorem lookup_foldl_erase {β : Type} (removed : List String) (m : Finmap fun _ : String => β)
    (domain : String) :
    (removed.foldl (fun m domain => m.erase domain) m).lookup domain =
      if domain ∈ removed then none else m.lookup domain := by
  induction removed generalizing m with
  | nil => rw [List.foldl_nil, if_neg List.not_mem_nil]
  | cons first removed ih =>
    rw [List.foldl_cons, ih]
    by_cases hfirst : domain = first
    · subst hfirst
      rw [Finmap.lookup_erase, ite_self, if_pos List.mem_cons_self]
    · rw [Finmap.lookup_erase_ne hfirst]
      simp only [List.mem_cons, hfirst, false_or]

/-- The entry carries the route: its upstreams in their order with their weights,
and the TLS section of its mode. -/
structure Carries (entry : NexaProxyRoute) (route : RouteConfig) : Prop where
  upstreams : entry.upstreams.map (fun u => (u.address, u.weight)) =
    route.upstream.map fun u => (u.address, u.weight)
  plain : route.tls = .none → entry.tls = none
  auto : ∀ email, route.tls = .auto email →
    entry.tls = some { certPath := none, keyPath := none, acmeEmail := some email }
  manual : ∀ cert key, route.tls = .manual cert key →
    entry.tls = some { certPath := some cert, keyPath := some key, acmeEmail := none }

theorem routeOf_carries (route : RouteConfig) : Carries (routeOf route) route where
  upstreams := by
    rw [routeOf, List.map_map]
    rfl
  plain htls := by rw [routeOf, htls, tlsOf]
  auto email htls := by rw [routeOf, htls, tlsOf]
  manual cert key htls := by rw [routeOf, htls, tlsOf]

/-- After a run with an applied list, the file is read as the configuration of
the last one without the domains that were removed since: the addresses that the
backend was made with, and for each other domain its last route there. -/
theorem config_follows_table (self : NexaProxyBackend) {serde : Serde} {before : List ProxyCall}
    {routes : List RouteConfig} {removed : List String} {fs fs' : Files}
    (hentries : ∀ m, Enumerates (serde.entries m) m)
    (hparse : ∀ kept, kept <+: removed →
      let document := (kept.foldl dropRoute (self.buildConfig routes)).toJson serde.entries
      serde.parse (serde.print document) = .ok document)
    (h : (ProxyBackend.nexaProxy self serde.json).Serves fs
      (before ++ .applyRoutes routes :: removed.map .removeRoute) fs') :
    ∃ text config, fs'.lookup self.configPath = some text ∧ serde.json.fromStr text = .ok config ∧
      config.httpListen = self.httpListen ∧ config.httpsListen = self.httpsListen ∧
      (∀ domain ∈ removed, config.routes.lookup domain = none) ∧
      (∀ domain, (∀ route ∈ routes, route.domain ≠ domain) → config.routes.lookup domain = none) ∧
      ∀ earlier route later, routes = earlier ++ route :: later →
        (∀ other ∈ later, other.domain ≠ route.domain) → route.domain ∉ removed →
          ∃ entry, config.routes.lookup route.domain = some entry ∧ Carries entry route := by
  have htrips : ∀ kept, kept <+: removed →
      serde.json.RoundTrips (kept.foldl dropRoute (self.buildConfig routes)) :=
    fun kept hkept => Serde.roundTrips (hentries _) (hparse kept hkept)
  obtain ⟨fs₁, -, hlast⟩ := ProxyBackend.serves_append h
  cases hlast with
  | cons renders runs rest =>
    cases renders
    have happlied := holds_written (htrips [] List.nil_prefix) runs
    obtain ⟨text, htext, hread⟩ := holds_removals htrips happlied rest
    rw [foldl_dropRoute] at hread
    refine ⟨text, _, htext, hread, rfl, rfl, fun domain hdomain => ?_, fun domain hnone => ?_,
      fun earlier route later heq hlast hkept => ?_⟩
    · rw [lookup_foldl_erase, if_pos hdomain]
    · rw [lookup_foldl_erase, buildConfig, Maps.lookup_insertAll_eq_none_iff.mpr hnone, ite_self]
    · refine ⟨routeOf route, ?_, routeOf_carries route⟩
      rw [lookup_foldl_erase, if_neg hkept, buildConfig, heq]
      exact Maps.lookup_insertAll_of_last hlast

end NexaProxyBackend

/-! ### One route, removed -/

/-- The entries of a map in the order of their keys. -/
def sortedEntries {β : Type} (m : Finmap fun _ : String => β) : List (String × β) :=
  (m.keys.sort (· ≤ ·)).filterMap fun k => (m.lookup k).map fun b => (k, b)

theorem sortedEntries_enumerates {β : Type} (m : Finmap fun _ : String => β) :
    Enumerates (sortedEntries m) m where
  nodup := by
    have hkeys : ∀ l : List String,
        ((l.filterMap fun k => (m.lookup k).map fun b => (k, b)).map Prod.fst).Sublist l := by
      intro l
      induction l with
      | nil => exact .slnil
      | cons k l ih =>
        rw [List.filterMap_cons]
        cases m.lookup k with
        | none => exact ih.cons k
        | some b => exact ih.cons_cons k
    exact (hkeys _).nodup (Finset.sort_nodup ..)
  mem_iff k b := by
    rw [sortedEntries, List.mem_filterMap]
    constructor
    · rintro ⟨k', -, hentry⟩
      obtain ⟨b', hlookup, heq⟩ := Option.map_eq_some_iff.mp hentry
      cases heq
      exact hlookup
    · intro hlookup
      refine ⟨k, ?_, by rw [hlookup]; rfl⟩
      rw [Finset.mem_sort, Finmap.mem_keys]
      exact Finmap.mem_of_lookup_eq_some hlookup

section Shop

open ProxyBackend NexaProxyBackend

/-- Three routes, one for each TLS mode. -/
def shopProxy : NexaProxyBackend := ⟨"/etc/nexa/proxy.json", "0.0.0.0:80", some "0.0.0.0:443"⟩

def plainRoute : RouteConfig := ⟨"app.example", [⟨"10.0.0.1:80", 1⟩], .none⟩

def autoRoute : RouteConfig :=
  ⟨"shop.example", [⟨"10.0.0.2:80", 3⟩, ⟨"10.0.0.3:80", 0⟩], .auto "ops@shop.example"⟩

def manualRoute : RouteConfig :=
  ⟨"vault.example", [⟨"10.0.0.4:80", 1⟩], .manual "/etc/tls/vault.pem" "/etc/tls/vault.key"⟩

def shopRoutes : List RouteConfig := [plainRoute, autoRoute, manualRoute]

/-- The documents with the first route and without. -/
def shopDocument : JsonValue := (shopProxy.buildConfig shopRoutes).toJson sortedEntries

def restDocument : JsonValue :=
  (dropRoute (shopProxy.buildConfig shopRoutes) "app.example").toJson sortedEntries

/-- The text of the addresses, and of the last two routes. -/
def listenText : String :=
  "\x7b\n  \"http_listen\": \"0.0.0.0:80\",\n  \"https_listen\": \"0.0.0.0:443\",\n" ++
  "  \"routes\": \x7b\n"

def stayingText : String :=
  "    \"shop.example\": \x7b\n      \"upstreams\": [\n        \x7b\n" ++
  "          \"address\": \"10.0.0.2:80\",\n          \"weight\": 3\n        \x7d,\n        \x7b\n" ++
  "          \"address\": \"10.0.0.3:80\",\n          \"weight\": 0\n        \x7d\n      ],\n" ++
  "      \"tls\": \x7b\n        \"acme_email\": \"ops@shop.example\"\n      \x7d\n    \x7d,\n" ++
  "    \"vault.example\": \x7b\n      \"upstreams\": [\n        \x7b\n" ++
  "          \"address\": \"10.0.0.4:80\",\n          \"weight\": 1\n        \x7d\n      ],\n" ++
  "      \"tls\": \x7b\n        \"cert_path\": \"/etc/tls/vault.pem\",\n" ++
  "        \"key_path\": \"/etc/tls/vault.key\"\n      \x7d\n    \x7d\n  \x7d\n\x7d"

def removedText : String :=
  "    " ++ ("\"app.example\": \x7b\n      \"upstreams\": [\n        \x7b\n" ++
  "          \"address\": \"10.0.0.1:80\",\n          \"weight\": 1\n        \x7d\n      ]\n    \x7d,\n")

def shopText : String := listenText ++ (removedText ++ stayingText)

def restText : String := listenText ++ stayingText

/-- Whether a document of the configuration lists the first route. -/
def listsApp : JsonValue → Bool
  | .object fields => match fields.lookup "routes" with
    | some (.object entries) => entries.any fun entry => entry.1 = "app.example"
    | _ => false
  | _ => false

def shopSerde : Serde where
  print document := if listsApp document then shopText else restText
  parse text :=
    if text = shopText then .ok shopDocument
    else if text = restText then .ok restDocument
    else .error "expected value at line 1 column 1"
  entries := sortedEntries

/-- A written configuration lists the domains that its map has. -/
private theorem listsApp_toJson (config : NexaProxyConfig) :
    listsApp (config.toJson sortedEntries) = (config.routes.lookup "app.example").isSome := by
  have hlists : listsApp (config.toJson sortedEntries) =
      ((sortedEntries config.routes).map fun entry => (entry.1, entry.2.toJson)).any
        fun entry => entry.1 = "app.example" := by
    obtain ⟨httpListen, httpsListen, routes⟩ := config
    cases httpsListen <;> rfl
  rw [hlists, List.any_map, Bool.eq_iff_iff, List.any_eq_true, Option.isSome_iff_exists]
  constructor
  · rintro ⟨⟨domain, entry⟩, hmem, hdomain⟩
    obtain rfl : domain = "app.example" := of_decide_eq_true hdomain
    exact ⟨entry, ((sortedEntries_enumerates _).mem_iff _ _).mp hmem⟩
  · rintro ⟨entry, hlookup⟩
    refine ⟨("app.example", entry), ((sortedEntries_enumerates _).mem_iff _ _).mpr hlookup, ?_⟩
    show decide ("app.example" = "app.example") = true
    exact decide_eq_true rfl

private theorem print_shopDocument : shopSerde.print shopDocument = shopText := by
  have hlists : listsApp shopDocument = true := by
    rw [shopDocument, listsApp_toJson]
    rfl
  exact if_pos hlists

private theorem print_restDocument : shopSerde.print restDocument = restText := by
  have hlists : ¬ listsApp restDocument = true := by
    rw [restDocument, listsApp_toJson, dropRoute, Finmap.lookup_erase]
    exact Bool.false_ne_true
  exact if_neg hlists

private theorem restText_ne : restText ≠ shopText := by
  intro h
  have hstart : stayingText = removedText ++ stayingText := by
    apply String.toList_injective
    simpa [restText, shopText, String.toList_append] using congrArg String.toList h
  have hlength := congrArg String.length hstart
  have hindent : "    ".length = 4 := rfl
  rw [String.length_append, removedText, String.length_append "    ", hindent] at hlength
  omega

private theorem parse_shopText : shopSerde.parse shopText = .ok shopDocument := by
  simp only [shopSerde, ↓reduceIte]

private theorem parse_restText : shopSerde.parse restText = .ok restDocument := by
  simp only [shopSerde, restText_ne, ↓reduceIte]

private theorem shopSerde_parses {kept : List String} (hkept : kept <+: ["app.example"]) :
    let document := (kept.foldl dropRoute (shopProxy.buildConfig shopRoutes)).toJson shopSerde.entries
    shopSerde.parse (shopSerde.print document) = .ok document := by
  cases kept with
  | nil =>
    show shopSerde.parse (shopSerde.print shopDocument) = .ok shopDocument
    rw [print_shopDocument]
    exact parse_shopText
  | cons domain kept =>
    obtain ⟨rfl, hnil⟩ := List.cons_prefix_cons.mp hkept
    obtain rfl := List.prefix_nil.mp hnil
    show shopSerde.parse (shopSerde.print restDocument) = .ok restDocument
    rw [print_restDocument]
    exact parse_restText

/-- Three routes are applied to a directory without a file, and the first is
removed: the others stay, with their weights and their certificates. -/
theorem config_follows_table_shop : ∃ (fs' : Files) (text : String) (config : NexaProxyConfig),
    (nexaProxy shopProxy shopSerde.json).Serves ∅
      [.applyRoutes shopRoutes, .removeRoute "app.example"] fs' ∧
    fs'.lookup "/etc/nexa/proxy.json" = some text ∧ shopSerde.json.fromStr text = .ok config ∧
    config.httpListen = "0.0.0.0:80" ∧ config.httpsListen = some "0.0.0.0:443" ∧
    config.routes.lookup "app.example" = none ∧
    (∃ entry, config.routes.lookup "shop.example" = some entry ∧
      entry.upstreams.map (fun u => (u.address, u.weight)) =
        [("10.0.0.2:80", 3), ("10.0.0.3:80", 0)] ∧
      entry.tls = some ⟨none, none, some "ops@shop.example"⟩) ∧
    ∃ entry, config.routes.lookup "vault.example" = some entry ∧
      entry.upstreams.map (fun u => (u.address, u.weight)) = [("10.0.0.4:80", 1)] ∧
      entry.tls = some ⟨some "/etc/tls/vault.pem", some "/etc/tls/vault.key", none⟩ := by
  have happlied : (shopProxy.applyRoutes shopSerde.json shopRoutes).ExecWell ∅ (.ok ())
      ((∅ : Files).insert shopProxy.configPath shopText) := by
    have hwritten : shopSerde.json.toStringPretty (shopProxy.buildConfig shopRoutes) = .ok shopText :=
      congrArg Except.ok print_shopDocument
    rw [NexaProxyBackend.applyRoutes, NexaProxyBackend.writeConfigSync, hwritten]
    exact .call ⟨.write _ _, rfl⟩ (.ret _ _)
  have hread : shopSerde.json.fromStr shopText = .ok (shopProxy.buildConfig shopRoutes) := by
    show (do NexaProxyConfig.fromJson (← shopSerde.parse shopText)) = _
    rw [parse_shopText]
    exact NexaProxyConfig.fromJson_toJson (shopProxy.buildConfig shopRoutes) (sortedEntries_enumerates _)
  have hremoved : (shopProxy.removeRoute shopSerde.json "app.example").ExecWell
      ((∅ : Files).insert shopProxy.configPath shopText) (.ok ())
      (((∅ : Files).insert shopProxy.configPath shopText).insert shopProxy.configPath restText) := by
    have hwritten : shopSerde.json.toStringPretty
        (dropRoute (shopProxy.buildConfig shopRoutes) "app.example") = .ok restText :=
      congrArg Except.ok print_restDocument
    refine .call ⟨.read (Finmap.lookup_insert _), rfl⟩ ?_
    simp only [hread]
    rw [NexaProxyBackend.writeConfigSync, hwritten]
    exact .call ⟨.write _ _, rfl⟩ (.ret _ _)
  have hserves : (nexaProxy shopProxy shopSerde.json).Serves ∅
      [.applyRoutes shopRoutes, .removeRoute "app.example"] _ :=
    .cons rfl happlied (.cons rfl hremoved (.nil _))
  obtain ⟨text, config, htext, hconfig, hhttp, hhttps, hgone, -, hkept⟩ :=
    @config_follows_table shopProxy shopSerde [] shopRoutes ["app.example"] _ _
      sortedEntries_enumerates (fun _ hkept => shopSerde_parses hkept) hserves
  obtain ⟨auto, hauto, hcarries⟩ := hkept [plainRoute] autoRoute [manualRoute] rfl
    (by decide) (by decide)
  obtain ⟨manual, hmanual, hcarries'⟩ := hkept [plainRoute, autoRoute] manualRoute [] rfl
    (by decide) (by decide)
  exact ⟨_, text, config, hserves, htext, hconfig, hhttp, hhttps,
    hgone _ (List.mem_singleton.mpr rfl), ⟨auto, hauto, hcarries.upstreams, hcarries.auto _ rfl⟩,
    manual, hmanual, hcarries'.upstreams, hcarries'.manual _ _ rfl⟩

end Shop

end Nexad.Proxy
