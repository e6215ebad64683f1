import Nexad.Laws.Proxy.Nginx
import Nexad.Laws.Proxy.Removal
import Nexad.Laws.Proxy.Rendering

/-!
# How applying routes can go wrong

Before a file is written the routes are rendered, and Caddy's rendering panics
at a route without upstreams; nothing else stands between a call and its writes
(`apply_reaches_writes_iff`). Three backends write one file. nginx writes one
for each route, and when a write fails those before it stay
(`failed_apply_keeps_iff`).
-/

namespace Nexad.Proxy

open Interleave

/-! ## Reaching the writes -/

namespace ProxyBackend

/-- The files that a list of routes is written to. -/
def targets (routes : List RouteConfig) : ProxyBackend → List String
  | .nginx backend => routes.map fun route => backend.confPath route.domain
  | .caddy backend => [backend.caddyfilePath]
  | .traefik backend _ => [backend.configPath]
  | .nexaProxy backend _ => [backend.configPath]

/-- Each file is written in its turn, as long as the writes before it succeed,
and then the program is done. -/
def Writes : List String → Prog fileSig (Except ProxyError Unit) → Prop
  | [], p => p = .ret (.ok ())
  | path :: paths, p => ∃ content k, p = .call (.write path content) k ∧ Writes paths (k (.ok ()))

/-- The routes have a text in the serializer's format. -/
def Serializes (routes : List RouteConfig) : ProxyBackend → Prop
  | .nginx _ | .caddy _ => True
  | .traefik _ yaml => ∃ text, yaml.toString (TraefikBackend.renderConfig routes) = .ok text
  | .nexaProxy backend json => ∃ text, json.toStringPretty (backend.buildConfig routes) = .ok text

/-- Caddy's is the rendering that looks up a first upstream. -/
def RendersFirst : ProxyBackend → Prop
  | .caddy _ => True
  | _ => False

theorem nginx_writes (backend : NginxBackend) (routes : List RouteConfig) :
    Writes (routes.map fun route => backend.confPath route.domain) (backend.applyRoutes routes) := by
  induction routes with
  | nil => rfl
  | cons route routes ih => exact ⟨_, _, rfl, ih⟩

/-- No call panics before its writes, except Caddy's with a route that has no
upstreams. -/
theorem apply_reaches_writes_iff (backend : ProxyBackend) {routes : List RouteConfig}
    (hserializes : backend.Serializes routes) :
    (∃ program, backend.applyRoutes routes = .ok program ∧ Writes (backend.targets routes) program) ↔
      (backend.RendersFirst → ∀ route ∈ routes, route.upstream ≠ []) := by
  cases backend with
  | nginx backend => exact iff_of_true ⟨_, rfl, nginx_writes backend routes⟩ False.elim
  | caddy backend =>
    constructor
    · rintro ⟨program, hprogram, -⟩ - route hroute hnone
      rw [applyRoutes, CaddyBackend.applyRoutes, CaddyBackend.renderCaddyfile_panics hroute hnone] at hprogram
      cases hprogram
    · intro hne
      rw [applyRoutes, CaddyBackend.applyRoutes, CaddyBackend.renderCaddyfile_blocks (hne trivial)]
      exact ⟨_, rfl, _, _, rfl, rfl⟩
  | traefik backend yaml =>
    obtain ⟨text, htext⟩ := hserializes
    refine iff_of_true ⟨_, rfl, ?_⟩ False.elim
    rw [TraefikBackend.applyRoutes, htext]
    exact ⟨_, _, rfl, rfl⟩
  | nexaProxy backend json =>
    obtain ⟨text, htext⟩ := hserializes
    refine iff_of_true ⟨_, rfl, ?_⟩ False.elim
    rw [NexaProxyBackend.applyRoutes, NexaProxyBackend.writeConfigSync, htext]
    exact ⟨_, _, rfl, rfl⟩

/-- nexa-proxy, and Caddy with an upstream. -/
theorem apply_reaches_writes_app :
    (∃ program, (nexaProxy appProxy appJson).applyRoutes appRoutes = .ok program ∧
      Writes [appProxy.configPath] program) ∧
    ∃ program, (caddy ⟨"/etc/caddy/Caddyfile"⟩).applyRoutes appRoutes = .ok program ∧
      Writes ["/etc/caddy/Caddyfile"] program := by
  have hupstream : ∀ route ∈ appRoutes, route.upstream ≠ [] := by
    intro route hroute
    rw [List.mem_singleton.mp hroute]
    exact List.cons_ne_nil _ _
  exact ⟨(apply_reaches_writes_iff (nexaProxy appProxy appJson) ⟨_, appJson_trips.1.1⟩).mpr
      fun _ => hupstream,
    (apply_reaches_writes_iff (caddy ⟨"/etc/caddy/Caddyfile"⟩) trivial).mpr fun _ => hupstream⟩

/-- A deployment of which no pod runs: Caddy's call panics, before any write. -/
theorem apply_panics_without_upstream :
    (caddy ⟨"/etc/caddy/Caddyfile"⟩).applyRoutes [⟨"app.example", [], .none⟩] = .error .outOfRange ∧
    ¬ ∃ program, (caddy ⟨"/etc/caddy/Caddyfile"⟩).applyRoutes [⟨"app.example", [], .none⟩] = .ok program ∧
      Writes ["/etc/caddy/Caddyfile"] program := by
  have hpanics : (caddy ⟨"/etc/caddy/Caddyfile"⟩).applyRoutes [⟨"app.example", [], .none⟩] =
      .error .outOfRange := rfl
  refine ⟨hpanics, ?_⟩
  rintro ⟨program, hprogram, -⟩
  rw [hpanics] at hprogram
  cases hprogram

end ProxyBackend

/-! ## A write that fails -/

namespace NginxBackend

variable (self : NginxBackend) {routes : List RouteConfig} {n : Nat} {e : IoError} {fs fs' : Files}
  {a : Except ProxyError Unit}

/-- The writes up to the failing one are done, and the rest are not. -/
theorem applyRoutes_failing {k k' : Nat} (hk : k ≤ n)
    (h : Prog.Exec (σ := fileSig) (FailsAt n e) (self.applyRoutes routes) (fs, k) a (fs', k')) :
    (n - k < routes.length → (∃ err, a = .error err) ∧
      fs' = self.effect fs (.applyRoutes (routes.take (n - k)))) ∧
    (routes.length ≤ n - k → a = .ok ()) := by
  induction routes generalizing fs k with
  | nil =>
    cases h
    exact ⟨fun hlt => absurd hlt (Nat.not_lt_zero _), fun _ => rfl⟩
  | cons route routes ih =>
    cases h with
    | call answered rest =>
      cases answered with
      | write _ _ others =>
        have hlt : k < n := Nat.lt_of_le_of_ne hk others
        obtain ⟨hfails, hpasses⟩ := ih hlt rest
        have hrest : n - k = n - (k + 1) + 1 := by omega
        rw [hrest]
        refine ⟨fun hlength => ?_, fun hlength => hpasses (Nat.le_of_succ_le_succ hlength)⟩
        exact hfails (Nat.lt_of_succ_lt_succ hlength)
      | failed =>
        cases rest
        rw [Nat.sub_self]
        exact ⟨fun _ => ⟨⟨_, rfl⟩, rfl⟩, fun hlength => absurd hlength (Nat.not_succ_le_zero _)⟩

/-- Writing routes changes nothing exactly when the directory shows them. -/
theorem effect_applyRoutes_eq_iff (routes : List RouteConfig) (fs : Files) :
    self.effect fs (.applyRoutes routes) = fs ↔
      ∀ domain route, (RouteTable.ofList routes).lookup domain = some route →
        fs.lookup (self.confPath domain) = some (renderConfig route) := by
  constructor
  · intro h domain route hroute
    rw [← h, self.lookup_applyRoutes, hroute, Option.map_some, Option.some_or]
  · intro h
    refine Finmap.ext_lookup fun path => ?_
    by_cases hpath : ∃ domain, self.confPath domain = path
    · obtain ⟨domain, rfl⟩ := hpath
      rw [self.lookup_applyRoutes]
      cases hroute : (RouteTable.ofList routes).lookup domain with
      | none => rw [Option.map_none, Option.none_or]
      | some route => rw [Option.map_some, Option.some_or, h domain route hroute]
    · have hnone : routes.reverse.find? (fun route => decide (self.confPath route.domain = path)) = none := by
        refine List.find?_eq_none.mpr fun route _ hroute => hpath ⟨route.domain, ?_⟩
        exact of_decide_eq_true hroute
      rw [effect, Maps.lookup_insertAll, hnone, Option.map_none, Option.none_or]

/-- A call that fails at its `n`-th write has changed nothing exactly when the
files already were as the routes before that one have them. -/
theorem failed_apply_keeps_iff (h : (self.applyRoutes routes).ExecFailing n e fs a fs') :
    ((∃ err, a = .error err) → fs' = fs) ↔
      (n < routes.length → ∀ domain route,
        (RouteTable.ofList (routes.take n)).lookup domain = some route →
          fs.lookup (self.confPath domain) = some (renderConfig route)) := by
  obtain ⟨writes, h⟩ := h
  obtain ⟨hfails, hpasses⟩ := self.applyRoutes_failing (Nat.zero_le n) h
  rw [Nat.sub_zero] at hfails hpasses
  by_cases hlt : n < routes.length
  · obtain ⟨herror, rfl⟩ := hfails hlt
    rw [← self.effect_applyRoutes_eq_iff]
    exact ⟨fun hkept _ => hkept herror, fun hshown _ => hshown hlt⟩
  · have hok := hpasses (Nat.le_of_not_lt hlt)
    refine iff_of_true ?_ fun hlt' => absurd hlt' hlt
    rintro ⟨err, herr⟩
    rw [hok] at herr
    cases herr

/-- Two routes, of which the second cannot be written. -/
private theorem second_write_fails (self : NginxBackend) (a b : RouteConfig) (e : IoError) (fs : Files) :
    ∃ err, (self.applyRoutes [a, b]).ExecFailing 1 e fs (.error err)
      (fs.insert (self.confPath a.domain) (renderConfig a)) :=
  ⟨_, _, .call (.write _ _ Nat.zero_ne_one) (.call (.failed _ _) (.ret _ _))⟩

def confD : NginxBackend := ⟨"/etc/nginx/conf.d"⟩

def noSpace : IoError := ⟨false, "No space left on device"⟩

def shop : RouteConfig := ⟨"shop.example", [⟨"10.0.0.1:80", 1⟩], .none⟩

def blog : RouteConfig := ⟨"blog.example", [⟨"10.0.0.2:80", 1⟩], .none⟩

/-- When the first route is already there as it is, the second may fail. -/
theorem failed_apply_keeps_shop : ∃ err fs',
    (confD.applyRoutes [shop, blog]).ExecFailing 1 noSpace
      ((∅ : Files).insert (confD.confPath "shop.example") (renderConfig shop)) (.error err) fs' ∧
    fs' = (∅ : Files).insert (confD.confPath "shop.example") (renderConfig shop) := by
  obtain ⟨err, hrun⟩ := second_write_fails confD shop blog noSpace
    ((∅ : Files).insert (confD.confPath "shop.example") (renderConfig shop))
  refine ⟨err, _, hrun, (confD.failed_apply_keeps_iff hrun).mpr (fun _ domain route hroute => ?_) ⟨err, rfl⟩⟩
  -- the first write is that of `shop`
  have hshop : domain = "shop.example" ∧ shop = route := by
    obtain ⟨route', hmem, hdomain, rfl⟩ := Maps.exists_of_lookup_insertAll hroute
    cases List.mem_singleton.mp hmem
    exact ⟨hdomain.symm, rfl⟩
  obtain ⟨rfl, rfl⟩ := hshop
  exact Finmap.lookup_insert _

/-- In an empty directory the first route's file stays behind. -/
theorem failed_apply_leaves_file : ∃ err fs',
    (confD.applyRoutes [shop, blog]).ExecFailing 1 noSpace ∅ (.error err) fs' ∧
    (confD.applyRoutes [shop, blog]).ExecFiles ∅ (.error err) fs' ∧ fs' ≠ ∅ := by
  obtain ⟨err, hrun⟩ := second_write_fails confD shop blog noSpace ∅
  refine ⟨err, _, hrun, hrun.execFiles, fun hnone => ?_⟩
  have hfile := Finmap.lookup_insert (a := confD.confPath shop.domain)
    (b := renderConfig shop) (∅ : Files)
  rw [hnone, Finmap.lookup_empty] at hfile
  cases hfile

end NginxBackend

end Nexad.Proxy
