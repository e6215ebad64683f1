import Nexad.Proxy.Traefik

/-!
# The Traefik file against its routes

Two domains that differ only in dots and dashes have the same router and
service names. Then one route overwrites the other when the file is rendered,
and removing one removes the other. Where the sanitisation keeps the domains
at hand apart, neither happens (`renders_and_removes_iff`).
-/

namespace Nexad.Proxy.TraefikBackend

open Interleave

/-- The servers are these upstreams in their order, each by its address over
HTTP, and with its weight if that is above the default of one. -/
structure Lists (servers : List TraefikServer) (upstream : List Upstream) : Prop where
  urls : servers.map TraefikServer.url = upstream.map fun u => "http://" ++ u.address
  weights : servers.map TraefikServer.weight =
    upstream.map fun u => if u.weight > 1 then some u.weight else none

/-- The configuration serves the route: a router with its rule leads to a
service that lists its upstreams. -/
def Serves (config : TraefikDynamicConfig) (route : RouteConfig) : Prop :=
  ∃ name r s, config.http.routers.lookup name = some r ∧
    r.rule = "Host(`" ++ route.domain ++ "`)" ∧
    config.http.services.lookup r.service = some s ∧ Lists s.loadBalancer.servers route.upstream

/-- The configuration is made of the routers and services of these routes:
each is served, and nothing else is there. -/
structure MadeOf (config : TraefikDynamicConfig) (routes : List RouteConfig) : Prop where
  serves : ∀ route ∈ routes, Serves config route
  routers : ∀ name r, config.http.routers.lookup name = some r →
    ∃ route ∈ routes, name = routerName route.domain ∧ r = router route
  services : ∀ name s, config.http.services.lookup name = some s →
    ∃ route ∈ routes, name = serviceName route.domain ∧ s = service route

/-! ## Names -/

theorem hostRule_injective {d d' : String} (h : hostRule d = hostRule d') : d = d' := by
  apply String.toList_injective
  simpa [hostRule, String.toList_append] using congrArg String.toList h

theorem routerName_eq_iff {d d' : String} :
    routerName d = routerName d' ↔ sanitized d = sanitized d' := by
  refine ⟨fun h => ?_, fun h => by rw [routerName, h, routerName]⟩
  apply String.toList_injective
  simpa [routerName, String.toList_append] using congrArg String.toList h

theorem serviceName_eq_iff {d d' : String} :
    serviceName d = serviceName d' ↔ sanitized d = sanitized d' := by
  refine ⟨fun h => ?_, fun h => by rw [serviceName, h, serviceName]⟩
  apply String.toList_injective
  simpa [serviceName, String.toList_append] using congrArg String.toList h

/-! ## Rendering and removing -/

/-- A route's own servers list its upstreams. -/
theorem servers_lists (route : RouteConfig) : Lists (servers route) route.upstream where
  urls := by
    rw [servers, List.map_map]
    rfl
  weights := by
    rw [servers, List.map_map]
    rfl

theorem renderConfig_http (routes : List RouteConfig) :
    (renderConfig routes).http.routers =
        Maps.insertAll (fun route => routerName route.domain) router routes ∅ ∧
      (renderConfig routes).http.services =
        Maps.insertAll (fun route => serviceName route.domain) service routes ∅ := by
  suffices h : ∀ config : TraefikDynamicConfig,
      (routes.foldl insertRoute config).http.routers =
          Maps.insertAll (fun route => routerName route.domain) router routes config.http.routers ∧
        (routes.foldl insertRoute config).http.services =
          Maps.insertAll (fun route => serviceName route.domain) service routes
            config.http.services from
    h ⟨⟨∅, ∅⟩⟩
  induction routes with
  | nil => exact fun _ => ⟨rfl, rfl⟩
  | cons route routes ih => exact fun config => ih (insertRoute config route)

/-- A router of the rendered file is that of a route, under its name. -/
theorem router_of_lookup {routes : List RouteConfig} {name : String} {r : TraefikRouter}
    (h : (renderConfig routes).http.routers.lookup name = some r) :
    ∃ route ∈ routes, name = routerName route.domain ∧ r = router route := by
  rw [(renderConfig_http routes).1] at h
  obtain ⟨route, hmem, hname, hr⟩ := Maps.exists_of_lookup_insertAll h
  exact ⟨route, hmem, hname.symm, hr.symm⟩

private theorem service_of_lookup {routes : List RouteConfig} {name : String} {s : TraefikService}
    (h : (renderConfig routes).http.services.lookup name = some s) :
    ∃ route ∈ routes, name = serviceName route.domain ∧ s = service route := by
  rw [(renderConfig_http routes).2] at h
  obtain ⟨route, hmem, hname, hs⟩ := Maps.exists_of_lookup_insertAll h
  exact ⟨route, hmem, hname.symm, hs.symm⟩

/-- Where no other domain of the list is sanitised alike, a route's own router
and service stand under its names. -/
private theorem lookup_own {routes : List RouteConfig}
    (hdistinct : (routes.map RouteConfig.domain).Nodup) {route : RouteConfig}
    (hmem : route ∈ routes)
    (happart : ∀ other ∈ routes, sanitized other.domain = sanitized route.domain →
      other.domain = route.domain) :
    (renderConfig routes).http.routers.lookup (routerName route.domain) = some (router route) ∧
      (renderConfig routes).http.services.lookup (serviceName route.domain) =
        some (service route) := by
  have honly : ∀ other ∈ routes, sanitized other.domain = sanitized route.domain →
      other = route := fun other hother h =>
    List.inj_on_of_nodup_map hdistinct hother hmem (happart other hother h)
  rw [(renderConfig_http routes).1, (renderConfig_http routes).2]
  refine ⟨Maps.lookup_insertAll_of_unique hmem fun other hother h => ?_,
    Maps.lookup_insertAll_of_unique hmem fun other hother h => ?_⟩
  · exact honly other hother (routerName_eq_iff.mp h)
  · exact honly other hother (serviceName_eq_iff.mp h)

/-- A served route's rule stands under the route's own router name. -/
private theorem Serves.own_name {routes : List RouteConfig} {route : RouteConfig}
    (h : Serves (renderConfig routes) route) :
    ∃ r, (renderConfig routes).http.routers.lookup (routerName route.domain) = some r ∧
      r.rule = hostRule route.domain := by
  obtain ⟨name, r, -, hlookup, hrule, -⟩ := h
  obtain ⟨other, -, hname, rfl⟩ := router_of_lookup hlookup
  have hdomain : other.domain = route.domain := hostRule_injective hrule
  rw [hname, hdomain] at hlookup
  exact ⟨_, hlookup, hrule⟩

/-- When every route of a list is served, no two domains are sanitised alike. -/
private theorem injOn_of_serves {routes : List RouteConfig}
    (h : ∀ route ∈ routes, Serves (renderConfig routes) route) {route other : RouteConfig}
    (hroute : route ∈ routes) (hother : other ∈ routes)
    (halike : sanitized route.domain = sanitized other.domain) :
    route.domain = other.domain := by
  obtain ⟨r, hr, hrule⟩ := (h route hroute).own_name
  obtain ⟨r', hr', hrule'⟩ := (h other hother).own_name
  rw [routerName_eq_iff.mpr halike, hr'] at hr
  cases hr
  exact hostRule_injective (hrule.symm.trans hrule')

/-- Taking out a domain that no other is sanitised like leaves the file made
of the other routes. -/
private theorem madeOf_dropRoute {routes : List RouteConfig} {domain : String}
    (hserves : ∀ route ∈ routes,
      (renderConfig routes).http.routers.lookup (routerName route.domain) = some (router route) ∧
        (renderConfig routes).http.services.lookup (serviceName route.domain) =
          some (service route))
    (happart : ∀ route ∈ routes, sanitized route.domain = sanitized domain →
      route.domain = domain) :
    MadeOf (dropRoute (renderConfig routes) domain)
      (routes.filter fun route => route.domain ≠ domain) := by
  have hkept : ∀ {route : RouteConfig}, route ∈ routes → route.domain ≠ domain →
      sanitized route.domain ≠ sanitized domain := fun hmem hne h => hne (happart _ hmem h)
  refine ⟨fun route hroute => ?_, fun name r hr => ?_, fun name s hs => ?_⟩
  · obtain ⟨hmem, hne⟩ := List.mem_filter.mp hroute
    have hne' := hkept hmem (of_decide_eq_true hne)
    refine ⟨routerName route.domain, router route, service route, ?_, rfl, ?_, servers_lists route⟩
    · rw [dropRoute, Finmap.lookup_erase_ne (fun h => hne' (routerName_eq_iff.mp h))]
      exact (hserves route hmem).1
    · rw [dropRoute, router, Finmap.lookup_erase_ne (fun h => hne' (serviceName_eq_iff.mp h))]
      exact (hserves route hmem).2
  · by_cases hname : name = routerName domain
    · rw [dropRoute, hname, Finmap.lookup_erase] at hr
      cases hr
    · rw [dropRoute, Finmap.lookup_erase_ne hname] at hr
      obtain ⟨route, hmem, rfl, rfl⟩ := router_of_lookup hr
      have hne : route.domain ≠ domain := fun h => hname (by rw [h])
      exact ⟨route, List.mem_filter.mpr ⟨hmem, decide_eq_true hne⟩, rfl, rfl⟩
  · by_cases hname : name = serviceName domain
    · rw [dropRoute, hname, Finmap.lookup_erase] at hs
      cases hs
    · rw [dropRoute, Finmap.lookup_erase_ne hname] at hs
      obtain ⟨route, hmem, rfl, rfl⟩ := service_of_lookup hs
      have hne : route.domain ≠ domain := fun h => hname (by rw [h])
      exact ⟨route, List.mem_filter.mpr ⟨hmem, decide_eq_true hne⟩, rfl, rfl⟩

/-! ## The file -/

theorem applyRoutes_ok_iff (self : TraefikBackend) (yaml : Yaml) (routes : List RouteConfig)
    (fs fs' : Files) : (self.applyRoutes yaml routes).ExecFiles fs (.ok ()) fs' ↔
      ∃ text, yaml.toString (renderConfig routes) = .ok text ∧
        fs' = fs.insert self.configPath text := by
  unfold applyRoutes
  cases htext : yaml.toString (renderConfig routes) with
  | error e =>
    refine ⟨fun h => ?_, fun h => ?_⟩
    · cases h
    · obtain ⟨text, h, -⟩ := h
      cases h
  | ok text =>
    refine ⟨fun h => ?_, fun h => ?_⟩
    · cases h with
      | call answered rest =>
        cases answered with
        | write => cases rest; exact ⟨text, rfl, rfl⟩
        | writeFailed => cases rest
        | writeTorn => cases rest
    · obtain ⟨text', h, hfs⟩ := h
      cases h
      rw [hfs]
      exact .call (.write _ _) (.ret _ _)

theorem removeRoute_ok_iff (self : TraefikBackend) (yaml : Yaml) (domain : String)
    {fs fs' : Files} {content : String} {config : TraefikDynamicConfig}
    (hcontent : fs.lookup self.configPath = some content)
    (hconfig : yaml.fromStr content = .ok config) :
    (self.removeRoute yaml domain).ExecFiles fs (.ok ()) fs' ↔
      ∃ text, yaml.toString (dropRoute config domain) = .ok text ∧
        fs' = fs.insert self.configPath text := by
  refine ⟨fun h => ?_, fun h => ?_⟩
  · cases h with
    | call answered rest =>
      cases answered with
      | read found =>
        rw [hcontent] at found
        cases found
        simp only [hconfig] at rest
        cases htext : yaml.toString (dropRoute config domain) with
        | error e =>
          simp only [htext] at rest
          cases rest
        | ok text =>
          simp only [htext] at rest
          cases rest with
          | call answered rest =>
            cases answered with
            | write => cases rest; exact ⟨text, rfl, rfl⟩
            | writeFailed => cases rest
            | writeTorn => cases rest
      | readMissing _ missing =>
        rw [hcontent] at missing
        cases missing
      | readFailed => cases rest
  · obtain ⟨text, htext, hfs⟩ := h
    refine .call (.read hcontent) ?_
    simp only [hconfig, htext, hfs]
    exact .call (.write _ _) (.ret _ _)

/-- After `apply_routes` and then `remove_route` of a domain, both successful,
the file reads as the routers and services of the other domains' routes. -/
def LeavesOthers (self : TraefikBackend) (yaml : Yaml) (routes : List RouteConfig)
    (domain : String) : Prop :=
  ∀ fs fs₁ fs₂, (self.applyRoutes yaml routes).ExecFiles fs (.ok ()) fs₁ →
    (self.removeRoute yaml domain).ExecFiles fs₁ (.ok ()) fs₂ →
    ∃ text config, fs₂.lookup self.configPath = some text ∧ yaml.fromStr text = .ok config ∧
      MadeOf config (routes.filter fun route => route.domain ≠ domain)

/-- With the two files involved read back as written, the removal's outcome
is the dropped configuration. -/
private theorem leavesOthers_iff (self : TraefikBackend) {yaml : Yaml}
    {routes : List RouteConfig} {domain : String} (hwhole : yaml.RoundTrips (renderConfig routes))
    (hrest : yaml.RoundTrips (dropRoute (renderConfig routes) domain)) :
    self.LeavesOthers yaml routes domain ↔ MadeOf (dropRoute (renderConfig routes) domain)
      (routes.filter fun route => route.domain ≠ domain) := by
  obtain ⟨whole, hwrite, hread⟩ := hwhole
  obtain ⟨rest, hwrite', hread'⟩ := hrest
  refine ⟨fun h => ?_, fun h fs fs₁ fs₂ happly hremove => ?_⟩
  · have happly := (self.applyRoutes_ok_iff yaml routes ∅ _).mpr ⟨whole, hwrite, rfl⟩
    have hcontent : Finmap.lookup self.configPath
        (Finmap.insert self.configPath whole (∅ : Files)) = some whole := Finmap.lookup_insert _
    have hremove := (self.removeRoute_ok_iff yaml domain hcontent hread).mpr ⟨rest, hwrite', rfl⟩
    obtain ⟨text, config, htext, hconfig, hmade⟩ := h _ _ _ happly hremove
    rw [Finmap.lookup_insert] at htext
    cases htext
    rw [hread'] at hconfig
    cases hconfig
    exact hmade
  · obtain ⟨text, htext, rfl⟩ := (self.applyRoutes_ok_iff yaml routes fs fs₁).mp happly
    rw [hwrite] at htext
    cases htext
    obtain ⟨text', htext', rfl⟩ :=
      (self.removeRoute_ok_iff yaml domain (Finmap.lookup_insert _) hread).mp hremove
    rw [hwrite'] at htext'
    cases htext'
    exact ⟨rest, _, Finmap.lookup_insert _, hread', h⟩

/-- For routes with different domains: every route is served by the rendered
file, and removing one domain leaves the others', exactly when sanitisation
keeps the domains of the list and the removed one apart. -/
theorem renders_and_removes_iff (self : TraefikBackend) {yaml : Yaml} {routes : List RouteConfig}
    {domain : String} (hdistinct : (routes.map RouteConfig.domain).Nodup)
    (hwhole : yaml.RoundTrips (renderConfig routes))
    (hrest : yaml.RoundTrips (dropRoute (renderConfig routes) domain)) :
    ((∀ route ∈ routes, Serves (renderConfig routes) route) ∧
        self.LeavesOthers yaml routes domain) ↔
      ∀ d ∈ domain :: routes.map RouteConfig.domain,
        ∀ d' ∈ domain :: routes.map RouteConfig.domain, sanitized d = sanitized d' → d = d' := by
  rw [self.leavesOthers_iff hwhole hrest]
  constructor
  · intro h d hd d' hd' halike
    obtain ⟨hserves, hmade⟩ := h
    -- a route that is left is served under its own name, which the removal has erased
    have hremoved : ∀ route ∈ routes, sanitized route.domain = sanitized domain →
        route.domain = domain := by
      intro route hroute hsame
      by_contra hne
      have hleft := hmade.serves route (List.mem_filter.mpr ⟨hroute, decide_eq_true hne⟩)
      obtain ⟨name, r, -, hlookup, hrule, -⟩ := hleft
      obtain ⟨other, -, hname, hr⟩ := hmade.routers name r hlookup
      rw [hr] at hrule
      rw [hname, hostRule_injective hrule, routerName_eq_iff.mpr hsame, dropRoute,
        Finmap.lookup_erase] at hlookup
      cases hlookup
    rcases List.mem_cons.mp hd with hd | hd
    · rcases List.mem_cons.mp hd' with hd' | hd'
      · rw [hd, hd']
      · obtain ⟨route, hroute, rfl⟩ := List.mem_map.mp hd'
        rw [hd] at halike ⊢
        exact (hremoved route hroute halike.symm).symm
    · obtain ⟨route, hroute, rfl⟩ := List.mem_map.mp hd
      rcases List.mem_cons.mp hd' with hd' | hd'
      · rw [hd'] at halike ⊢
        exact hremoved route hroute halike
      · obtain ⟨other, hother, rfl⟩ := List.mem_map.mp hd'
        exact injOn_of_serves hserves hroute hother halike
  · intro happart
    have hin : ∀ {route : RouteConfig}, route ∈ routes →
        route.domain ∈ domain :: routes.map RouteConfig.domain :=
      fun hmem => List.mem_cons_of_mem _ (List.mem_map_of_mem hmem)
    have hown := fun route (hroute : route ∈ routes) => lookup_own hdistinct hroute
      fun other hother => happart _ (hin hother) _ (hin hroute)
    exact ⟨fun route hroute => ⟨_, _, _, (hown route hroute).1, rfl, (hown route hroute).2,
        servers_lists route⟩,
      madeOf_dropRoute hown fun route hroute => happart _ (hin hroute) _ List.mem_cons_self⟩

/-- Reading and writing over a fixed list of configurations and their texts. -/
private def yamlOf (entries : List (TraefikDynamicConfig × String)) : Yaml where
  toString config := match entries.find? fun e => e.1 = config with
    | some e => .ok e.2
    | none => .error "unknown configuration"
  fromStr text := match entries.find? fun e => e.2 = text with
    | some e => .ok e.1
    | none => .error "unknown text"

private theorem yamlOf_roundTrips {config config' : TraefikDynamicConfig} {text text' : String}
    (hconfig : config ≠ config') (htext : text ≠ text') :
    (yamlOf [(config, text), (config', text')]).RoundTrips config ∧
      (yamlOf [(config, text), (config', text')]).RoundTrips config' := by
  refine ⟨⟨text, ?_, ?_⟩, ⟨text', ?_, ?_⟩⟩ <;> simp [yamlOf, hconfig, htext]

set_option maxRecDepth 4000 in
/-- Two domains with different sanitised names. -/
theorem renders_and_removes_two :
    let self : TraefikBackend := ⟨"/etc/traefik/nexa.yml"⟩
    let app : RouteConfig :=
      ⟨"app.example.com", [⟨"10.0.0.1:8080", 3⟩, ⟨"10.0.0.2:8080", 1⟩], .auto "admin@example.com"⟩
    let plain : RouteConfig := ⟨"plain.example.com", [⟨"10.0.0.5:3000", 1⟩], .none⟩
    let rest := "http:\n  routers:\n    nexa-plain-example-com:\n" ++
      "      rule: Host(`plain.example.com`)\n      entryPoints:\n      - web\n" ++
      "      service: nexa-svc-plain-example-com\n" ++
      "  services:\n    nexa-svc-plain-example-com:\n      loadBalancer:\n" ++
      "        servers:\n        - url: http://10.0.0.5:3000\n" ++
      "        healthCheck:\n          path: /health\n          interval: 10s\n"
    let whole := "http:\n  routers:\n    nexa-app-example-com:\n" ++
      "      rule: Host(`app.example.com`)\n      entryPoints:\n      - websecure\n" ++
      "      service: nexa-svc-app-example-com\n      tls:\n        certResolver: letsencrypt\n" ++
      "    nexa-plain-example-com:\n" ++
      "      rule: Host(`plain.example.com`)\n      entryPoints:\n      - web\n" ++
      "      service: nexa-svc-plain-example-com\n" ++
      "  services:\n    nexa-svc-app-example-com:\n      loadBalancer:\n" ++
      "        servers:\n        - url: http://10.0.0.1:8080\n          weight: 3\n" ++
      "        - url: http://10.0.0.2:8080\n" ++
      "        healthCheck:\n          path: /health\n          interval: 10s\n" ++
      "    nexa-svc-plain-example-com:\n      loadBalancer:\n" ++
      "        servers:\n        - url: http://10.0.0.5:3000\n" ++
      "        healthCheck:\n          path: /health\n          interval: 10s\n"
    let yaml := yamlOf [(renderConfig [app, plain], whole),
      (dropRoute (renderConfig [app, plain]) "app.example.com", rest)]
    (∀ route ∈ [app, plain], Serves (renderConfig [app, plain]) route) ∧
      self.LeavesOthers yaml [app, plain] "app.example.com" := by
  intro self app plain rest whole yaml
  have hconfig : renderConfig [app, plain] ≠
      dropRoute (renderConfig [app, plain]) "app.example.com" := by
    intro h
    have hlookup := congrArg (fun c => c.http.routers.lookup "nexa-app-example-com") h
    exact absurd hlookup (by decide)
  have htext : whole ≠ rest := by decide
  obtain ⟨hwhole, hrest⟩ := yamlOf_roundTrips hconfig htext
  exact (self.renders_and_removes_iff (by decide) hwhole hrest).mpr (by decide)

/-- `a.b.example` and `a-b.example` share their names: rendered together the
first route is gone, and removing the second domain removes the first. -/
theorem sanitized_collision :
    let dotted : RouteConfig := ⟨"a.b.example", [⟨"10.0.0.1:80", 1⟩], .none⟩
    let dashed : RouteConfig := ⟨"a-b.example", [⟨"10.0.0.2:80", 1⟩], .none⟩
    dotted.domain ≠ dashed.domain ∧ ¬ Serves (renderConfig [dotted, dashed]) dotted ∧
      ¬ MadeOf (dropRoute (renderConfig [dotted]) dashed.domain)
        ([dotted].filter fun route => route.domain ≠ dashed.domain) := by
  intro dotted dashed
  refine ⟨by decide, fun h => ?_, fun h => ?_⟩
  · obtain ⟨r, hr, hrule⟩ := h.own_name
    have hlast : (renderConfig [dotted, dashed]).http.routers.lookup
        (routerName dotted.domain) = some (router dashed) := by decide
    rw [hlast] at hr
    cases hr
    exact absurd hrule (by decide)
  · obtain ⟨name, r, -, hlookup, -⟩ := h.serves dotted (by decide)
    have hempty : (dropRoute (renderConfig [dotted]) dashed.domain).http.routers = ∅ := by decide
    rw [hempty] at hlookup
    cases hlookup

end Nexad.Proxy.TraefikBackend
