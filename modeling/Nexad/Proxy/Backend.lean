import Nexad.Proxy.Caddy
import Nexad.Proxy.NexaProxy
import Nexad.Proxy.Nginx
import Nexad.Proxy.Traefik

/-!
# Any of the backends

The two calls that all backends have. Rendering a list of routes comes before
every file operation, and Caddy's may panic.
-/

namespace Nexad.Proxy

open Interleave

/-- A backend, with the serializer of its file. -/
inductive ProxyBackend where
  | nginx (backend : NginxBackend)
  | caddy (backend : CaddyBackend)
  | traefik (backend : TraefikBackend) (yaml : Yaml)
  | nexaProxy (backend : NexaProxyBackend) (json : Json)

namespace ProxyBackend

def applyRoutes (routes : List RouteConfig) :
    ProxyBackend → Except Slice.Panic (Prog fileSig (Except ProxyError Unit))
  | .nginx backend => .ok (backend.applyRoutes routes)
  | .caddy backend => backend.applyRoutes routes
  | .traefik backend yaml => .ok (backend.applyRoutes yaml routes)
  | .nexaProxy backend json => .ok (backend.applyRoutes json routes)

def removeRoute (domain : String) : ProxyBackend → Prog fileSig (Except ProxyError Unit)
  | .nginx backend => backend.removeRoute domain
  | .caddy backend => backend.removeRoute domain
  | .traefik backend yaml => backend.removeRoute yaml domain
  | .nexaProxy backend json => backend.removeRoute json domain

/-- One call on the backend. -/
def serve (call : ProxyCall) (backend : ProxyBackend) :
    Except Slice.Panic (Prog fileSig (Except ProxyError Unit)) :=
  match call with
  | .applyRoutes routes => backend.applyRoutes routes
  | .removeRoute domain => .ok (backend.removeRoute domain)

/-- A sequence of calls, one after the other, of which every file operation
succeeds. -/
inductive Serves (backend : ProxyBackend) : Files → List ProxyCall → Files → Prop
  | nil (fs : Files) : Serves backend fs [] fs
  | cons {fs fs' fs'' : Files} {c : ProxyCall} {cs : List ProxyCall}
      {program : Prog fileSig (Except ProxyError Unit)} {a : Except ProxyError Unit}
      (renders : backend.serve c = .ok program) (runs : program.ExecWell fs a fs')
      (rest : Serves backend fs' cs fs'') : Serves backend fs (c :: cs) fs''

end ProxyBackend

end Nexad.Proxy
