import Nexad.Laws.Proxy.Nginx

/-!
# Names in one name space

nginx loads the files of all domains into one name space, where each has an
upstream block and a server block that passes requests to it by name. `fileOf`
is a file by its parts, and `renderConfig_print` says that it is the text.

The name of a block is the domain with its dots and dashes replaced, and that of
the file is not. So the blocks of a list of routes are told apart exactly if no
two of its domains differ only there (`upstream_names_iff`).
-/

namespace Nexad.Proxy.NginxBackend

open Interleave

/-- A server block: where it listens and for which name, its certificate, and
what it does with a request. It passes it on to an upstream, or redirects it. -/
structure ServerBlock where
  listen : String
  serverName : String
  certificate : List String
  challenges : Bool
  passes : Option String

/-- A configuration file: an upstream block with its servers, and server blocks. -/
structure NginxFile where
  upstream : String
  servers : List Upstream
  blocks : List ServerBlock

/-- One line of an upstream block. -/
def printServer (up : Upstream) : String :=
  if up.weight > 1 then s!"    server {up.address} weight={up.weight.toNat};\n"
  else s!"    server {up.address};\n"

/-- The location that passes every request to an upstream block. -/
def printPass (upstream : String) : String :=
  "    location / \x7b\n" ++
  s!"        proxy_pass http://{upstream};\n" ++
  proxyHeaders ++
  "    \x7d\n" ++
  "\x7d\n"

def ServerBlock.print (block : ServerBlock) : String :=
  "server \x7b\n" ++
  s!"    listen {block.listen};\n" ++
  s!"    server_name {block.serverName};\n\n" ++
  String.join block.certificate ++
  (if block.challenges then
    "    location /.well-known/acme-challenge/ \x7b\n" ++
    "        root /var/www/certbot;\n" ++
    "    \x7d\n\n"
  else "") ++
  match block.passes with
  | some upstream => printPass upstream
  | none => renderRedirect

def NginxFile.print (file : NginxFile) : String :=
  s!"upstream {file.upstream} \x7b\n" ++
  String.join (file.servers.map printServer) ++
  "\x7d\n\n" ++
  String.join (file.blocks.map ServerBlock.print)

/-- The server blocks of a route. -/
def blocksOf (route : RouteConfig) : List ServerBlock :=
  let upstream := domainUnderscored route.domain
  match route.tls with
  | .none => [⟨"80", route.domain, [], false, some upstream⟩]
  | .auto email =>
    [⟨"80", route.domain, [], true, none⟩,
      ⟨"443 ssl", route.domain,
        [s!"    ssl_certificate /etc/letsencrypt/live/{route.domain}/fullchain.pem;\n",
          s!"    ssl_certificate_key /etc/letsencrypt/live/{route.domain}/privkey.pem;\n",
          s!"    # Managed by Certbot for {email}\n\n"], false, some upstream⟩]
  | .manual cert key =>
    [⟨"80", route.domain, [], false, none⟩,
      ⟨"443 ssl", route.domain,
        [s!"    ssl_certificate {cert};\n", s!"    ssl_certificate_key {key};\n\n"], false,
        some upstream⟩]

/-- The file of a route, by its parts. -/
def fileOf (route : RouteConfig) : NginxFile :=
  ⟨domainUnderscored route.domain, route.upstream, blocksOf route⟩

/-- The parts make up the text. -/
theorem renderConfig_print (route : RouteConfig) : renderConfig route = (fileOf route).print := by
  have hhttp : "    listen 80;\n" = "    listen " ++ ("80" ++ ";\n") := by decide
  have hhttps : "    listen 443 ssl;\n" = "    listen " ++ ("443 ssl" ++ ";\n") := by decide
  have hupstream : renderUpstream route = s!"upstream {domainUnderscored route.domain} \x7b\n" ++
      String.join (route.upstream.map printServer) ++ "\x7d\n\n" := rfl
  unfold renderConfig NginxFile.print fileOf blocksOf
  rw [hupstream]
  cases route.tls with
  | none =>
    simp only [hhttp, ServerBlock.print, List.map_cons, List.map_nil, String.join_cons,
      String.join_nil, String.append_assoc, String.append_empty, if_false,
      Bool.false_eq_true]
    rfl
  | auto email =>
    simp only [hhttp, hhttps, ServerBlock.print, List.map_cons, List.map_nil, String.join_cons,
      String.join_nil, String.append_assoc, String.append_empty, if_false,
      Bool.false_eq_true, if_true]
    rfl
  | manual cert key =>
    simp only [hhttp, hhttps, ServerBlock.print, List.map_cons, List.map_nil, String.join_cons,
      String.join_nil, String.append_assoc, String.append_empty, if_false,
      Bool.false_eq_true]
    rfl

/-! ## The files of a list -/

/-- A server block redirects requests, or passes them to the upstream of its route. -/
private theorem passes_cases (route : RouteConfig) : ∀ block ∈ blocksOf route,
    block.passes = none ∨ block.passes = some (domainUnderscored route.domain) := by
  unfold blocksOf
  dsimp only
  split
  · simp
  · simp
  · simp

theorem passes_own {route : RouteConfig} {block : ServerBlock} (hblock : block ∈ (fileOf route).blocks)
    {upstream : String} (hpasses : block.passes = some upstream) :
    upstream = (fileOf route).upstream := by
  rcases passes_cases route block hblock with h | h
  · rw [hpasses] at h
    cases h
  · rw [hpasses] at h
    exact Option.some.inj h

/-- After a list of routes with different domains, each has its file. -/
theorem lookup_applied (self : NginxBackend) {routes : List RouteConfig} {fs fs' : Files}
    (hdistinct : (routes.map RouteConfig.domain).Nodup)
    (happly : (self.applyRoutes routes).ExecFiles fs (.ok ()) fs') {route : RouteConfig}
    (hroute : route ∈ routes) :
    fs'.lookup (self.confPath route.domain) = some (fileOf route).print := by
  rw [(self.applyRoutes_ok_iff routes fs fs').mp happly, ← renderConfig_print]
  have hkey : ∀ other ∈ routes, self.confPath other.domain = self.confPath route.domain →
      other = route :=
    fun other hother h => List.inj_on_of_nodup_map hdistinct hother hroute (self.confPath_injective h)
  exact Maps.lookup_insertAll_of_unique hroute hkey

/-- In the files of a list of routes no two upstream blocks have one name, and
every server block that passes requests on names the block of its own route and
of no other. -/
structure OwnNames (routes : List RouteConfig) : Prop where
  unique : ∀ route ∈ routes, ∀ other ∈ routes,
    (fileOf route).upstream = (fileOf other).upstream → route = other
  own : ∀ route ∈ routes, ∀ block ∈ (fileOf route).blocks, ∀ upstream, block.passes = some upstream →
    ∀ other ∈ routes, (fileOf other).upstream = upstream ↔ other = route

/-- The files that `apply_routes` writes for routes with different domains: they
are those of the routes, and have names of their own exactly if no two of the
domains differ in dots and dashes only. -/
theorem upstream_names_iff (self : NginxBackend) {routes : List RouteConfig} {fs fs' : Files}
    (hdistinct : (routes.map RouteConfig.domain).Nodup)
    (happly : (self.applyRoutes routes).ExecFiles fs (.ok ()) fs') :
    (∀ route ∈ routes, fs'.lookup (self.confPath route.domain) = some (fileOf route).print) ∧
      (OwnNames routes ↔ ∀ route ∈ routes, ∀ other ∈ routes,
        domainUnderscored route.domain = domainUnderscored other.domain →
          route.domain = other.domain) := by
  refine ⟨fun route hroute => self.lookup_applied hdistinct happly hroute, ?_⟩
  constructor
  · intro h route hroute other hother halike
    rw [h.unique route hroute other hother halike]
  · intro happart
    have hunique : ∀ route ∈ routes, ∀ other ∈ routes,
        (fileOf route).upstream = (fileOf other).upstream → route = other :=
      fun route hroute other hother halike =>
        List.inj_on_of_nodup_map hdistinct hroute hother (happart route hroute other hother halike)
    refine ⟨hunique, fun route hroute block hblock upstream hpasses other hother => ?_⟩
    rw [passes_own hblock hpasses]
    constructor
    · exact hunique other hother route hroute
    · rintro rfl
      rfl

/-- Two domains with names of their own. -/
theorem upstream_names_two :
    let app : RouteConfig := ⟨"app.example", [⟨"10.0.0.1:80", 1⟩], .none⟩
    let api : RouteConfig := ⟨"api.example", [⟨"10.0.0.2:80", 1⟩], .none⟩
    OwnNames [app, api] := by
  intro app api
  have happly := (applyRoutes_ok_iff ⟨"/etc/nginx/conf.d"⟩ [app, api] ∅ _).mpr rfl
  exact (upstream_names_iff ⟨"/etc/nginx/conf.d"⟩ (by decide) happly).2.mpr (by decide)

/-- `a.b.example` and `a-b.example` have a file each, with upstream blocks of one
name, and the server block of the one passes to the block of the other. -/
theorem upstream_names_clash :
    let self : NginxBackend := ⟨"/etc/nginx/conf.d"⟩
    let dotted : RouteConfig := ⟨"a.b.example", [⟨"10.0.0.1:80", 1⟩], .none⟩
    let dashed : RouteConfig := ⟨"a-b.example", [⟨"10.0.0.2:80", 1⟩], .none⟩
    ∃ fs, (self.applyRoutes [dotted, dashed]).ExecFiles ∅ (.ok ()) fs ∧
      fs.lookup (self.confPath dotted.domain) = some (fileOf dotted).print ∧
      fs.lookup (self.confPath dashed.domain) = some (fileOf dashed).print ∧
      (fileOf dotted).upstream = "a_b_example" ∧ (fileOf dashed).upstream = "a_b_example" ∧
      ¬ OwnNames [dotted, dashed] := by
  intro self dotted dashed
  have happly := (self.applyRoutes_ok_iff [dotted, dashed] ∅ _).mpr rfl
  have hfile := fun (route : RouteConfig) (hroute : route ∈ [dotted, dashed]) =>
    self.lookup_applied (by decide) happly hroute
  refine ⟨_, happly, hfile dotted (by simp), hfile dashed (by simp), by decide, by decide, fun h => ?_⟩
  have hsame := h.unique dotted (by simp) dashed (by simp) (by decide)
  exact absurd (congrArg RouteConfig.domain hsame) (by decide)

end Nexad.Proxy.NginxBackend
