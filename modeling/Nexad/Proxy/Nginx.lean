import Nexad.Base.Files
import Nexad.Base.Text
import Nexad.Proxy.Route

/-!
# The nginx backend

One file per domain under nginx's configuration directory. `apply_routes`
writes a file for each route it is given, `remove_route` deletes one.
-/

namespace Nexad.Proxy

open Interleave

/-- `NginxBackend`: the directory of the configuration files. -/
structure NginxBackend where
  confDir : String
  deriving DecidableEq, Repr

namespace NginxBackend

/-- The file of a domain. -/
def confPath (self : NginxBackend) (domain : String) : String :=
  Text.joinPath self.confDir ("nexa-" ++ domain ++ ".conf")

/-- A domain as the name of an upstream block. -/
def domainUnderscored (domain : String) : String :=
  String.ofList (domain.toList.map fun c => if c = '.' ∨ c = '-' then '_' else c)

/-- The upstream block: a server for each upstream, with its weight if above one. -/
def renderUpstream (route : RouteConfig) : String :=
  s!"upstream {domainUnderscored route.domain} \x7b\n" ++
  String.join (route.upstream.map fun up =>
    if up.weight > 1 then s!"    server {up.address} weight={up.weight.toNat};\n"
    else s!"    server {up.address};\n") ++
  "\x7d\n\n"

/-- The headers every proxied request gets, indented. -/
def proxyHeaders : String :=
  "    proxy_set_header Host $host;\n" ++
  "    proxy_set_header X-Real-IP $remote_addr;\n" ++
  "    proxy_set_header X-Forwarded-For $proxy_add_x_forwarded_for;\n" ++
  "    proxy_set_header X-Forwarded-Proto $scheme;\n"

/-- The location that passes every request to the upstream block. -/
def renderLocation (domain : String) : String :=
  "    location / \x7b\n" ++
  s!"        proxy_pass http://{domainUnderscored domain};\n" ++
  proxyHeaders ++
  "    \x7d\n" ++
  "\x7d\n"

/-- The location that sends every request to HTTPS. -/
def renderRedirect : String :=
  "    location / \x7b\n" ++
  "        return 301 https://$host$request_uri;\n" ++
  "    \x7d\n" ++
  "\x7d\n\n"

/-- The configuration file of a route. -/
def renderConfig (route : RouteConfig) : String :=
  renderUpstream route ++
  match route.tls with
  | .none =>
    "server \x7b\n" ++
    "    listen 80;\n" ++
    s!"    server_name {route.domain};\n\n" ++
    renderLocation route.domain
  | .auto email =>
    "server \x7b\n" ++
    "    listen 80;\n" ++
    s!"    server_name {route.domain};\n\n" ++
    "    location /.well-known/acme-challenge/ \x7b\n" ++
    "        root /var/www/certbot;\n" ++
    "    \x7d\n\n" ++
    renderRedirect ++
    "server \x7b\n" ++
    "    listen 443 ssl;\n" ++
    s!"    server_name {route.domain};\n\n" ++
    s!"    ssl_certificate /etc/letsencrypt/live/{route.domain}/fullchain.pem;\n" ++
    s!"    ssl_certificate_key /etc/letsencrypt/live/{route.domain}/privkey.pem;\n" ++
    s!"    # Managed by Certbot for {email}\n\n" ++
    renderLocation route.domain
  | .manual cert key =>
    "server \x7b\n" ++
    "    listen 80;\n" ++
    s!"    server_name {route.domain};\n\n" ++
    renderRedirect ++
    "server \x7b\n" ++
    "    listen 443 ssl;\n" ++
    s!"    server_name {route.domain};\n\n" ++
    s!"    ssl_certificate {cert};\n" ++
    s!"    ssl_certificate_key {key};\n\n" ++
    renderLocation route.domain

/-- Write the file of each route, up to the first write that fails. -/
def applyRoutes (self : NginxBackend) :
    List RouteConfig → Prog fileSig (Except ProxyError Unit)
  | [] => .ret (.ok ())
  | route :: routes =>
    let path := self.confPath route.domain
    .call (.write path (renderConfig route)) fun
      | .error e => .ret (.error (.proxy s!"failed to write nginx config {path}: {e.text}"))
      | .ok () => self.applyRoutes routes

/-- Delete the file of a domain; a file that is not there is no error. -/
def removeRoute (self : NginxBackend) (domain : String) : Prog fileSig (Except ProxyError Unit) :=
  let path := self.confPath domain
  .call (.removeFile path) fun
    | .ok () => .ret (.ok ())
    | .error e =>
      if e.notFound then .ret (.ok ())
      else .ret (.error (.proxy s!"failed to remove nginx config {path}: {e.text}"))

/-- One call on the backend. -/
def serve (self : NginxBackend) : ProxyCall → Prog fileSig (Except ProxyError Unit)
  | .applyRoutes routes => self.applyRoutes routes
  | .removeRoute domain => self.removeRoute domain

/-- A sequence of calls, one after the other, each of which succeeded. -/
inductive Serves (self : NginxBackend) : Files → List ProxyCall → Files → Prop
  | nil (fs : Files) : Serves self fs [] fs
  | cons {fs fs' fs'' : Files} {c : ProxyCall} {cs : List ProxyCall} :
      Prog.ExecFiles (self.serve c) fs (.ok ()) fs' → Serves self fs' cs fs'' →
      Serves self fs (c :: cs) fs''

end NginxBackend

end Nexad.Proxy
