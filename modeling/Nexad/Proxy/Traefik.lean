import Nexad.Base.Files
import Nexad.Proxy.Route

/-!
# The Traefik backend

One YAML file holds every router and service, keyed by names made from the
domain with its dots turned into dashes. `apply_routes` writes the file whole;
`remove_route` reads it, drops the two entries of one domain, and writes it
back. Writing and reading YAML is `serde_yaml`'s: `Yaml` stands for it.
-/

namespace Nexad.Proxy

open Interleave

structure TraefikTls where
  certResolver : Option String
  deriving DecidableEq, Repr

structure TraefikRouter where
  rule : String
  entryPoints : List String
  service : String
  tls : Option TraefikTls
  deriving DecidableEq, Repr

structure TraefikServer where
  url : String
  weight : Option UInt32
  deriving DecidableEq, Repr

structure TraefikHealthCheck where
  path : String
  interval : String
  deriving DecidableEq, Repr

structure TraefikLoadBalancer where
  servers : List TraefikServer
  healthCheck : TraefikHealthCheck
  deriving DecidableEq, Repr

structure TraefikService where
  loadBalancer : TraefikLoadBalancer
  deriving DecidableEq, Repr

structure TraefikHttp where
  routers : Finmap fun _ : String => TraefikRouter
  services : Finmap fun _ : String => TraefikService
  deriving DecidableEq

/-- The dynamic configuration file. -/
structure TraefikDynamicConfig where
  http : TraefikHttp
  deriving DecidableEq

/-- `serde_yaml` at the configuration's type. -/
structure Yaml where
  toString : TraefikDynamicConfig → Except String String
  fromStr : String → Except String TraefikDynamicConfig

/-- The configuration is read back from the text it is written as. -/
def Yaml.RoundTrips (yaml : Yaml) (config : TraefikDynamicConfig) : Prop :=
  ∃ text, yaml.toString config = .ok text ∧ yaml.fromStr text = .ok config

/-- `TraefikBackend`: the configuration file. -/
structure TraefikBackend where
  configPath : String
  deriving DecidableEq, Repr

namespace TraefikBackend

/-- A domain as part of a name: every dot a dash. -/
def sanitized (domain : String) : String :=
  String.ofList (domain.toList.map fun c => if c = '.' then '-' else c)

def routerName (domain : String) : String := "nexa-" ++ sanitized domain

def serviceName (domain : String) : String := "nexa-svc-" ++ sanitized domain

/-- The rule that matches a domain. -/
def hostRule (domain : String) : String := "Host(`" ++ domain ++ "`)"

/-- The entry points and the TLS section of a TLS mode. -/
def entryPointsAndTls : TlsConfig → List String × Option TraefikTls
  | .none => (["web"], none)
  | .auto _ => (["websecure"], some ⟨some "letsencrypt"⟩)
  | .manual _ _ => (["websecure"], some ⟨none⟩)

/-- The router of a route. -/
def router (route : RouteConfig) : TraefikRouter where
  rule := hostRule route.domain
  entryPoints := (entryPointsAndTls route.tls).1
  service := serviceName route.domain
  tls := (entryPointsAndTls route.tls).2

/-- A route's upstreams as servers; a weight is written if above one. -/
def servers (route : RouteConfig) : List TraefikServer :=
  route.upstream.map fun u =>
    ⟨"http://" ++ u.address, if u.weight > 1 then some u.weight else none⟩

/-- The service of a route. -/
def service (route : RouteConfig) : TraefikService :=
  ⟨⟨servers route, ⟨"/health", "10s"⟩⟩⟩

/-- Insert the router and the service of a route. -/
def insertRoute (config : TraefikDynamicConfig) (route : RouteConfig) : TraefikDynamicConfig :=
  ⟨⟨config.http.routers.insert (routerName route.domain) (router route),
    config.http.services.insert (serviceName route.domain) (service route)⟩⟩

/-- The configuration of a list of routes. -/
def renderConfig (routes : List RouteConfig) : TraefikDynamicConfig :=
  routes.foldl insertRoute ⟨⟨∅, ∅⟩⟩

/-- Take out the router and the service named after a domain. -/
def dropRoute (config : TraefikDynamicConfig) (domain : String) : TraefikDynamicConfig :=
  ⟨⟨config.http.routers.erase (routerName domain), config.http.services.erase (serviceName domain)⟩⟩

/-- Write the configuration of a list of routes over the file. -/
def applyRoutes (self : TraefikBackend) (yaml : Yaml) (routes : List RouteConfig) :
    Prog fileSig (Except ProxyError Unit) :=
  match yaml.toString (renderConfig routes) with
  | .error e => .ret (.error (.proxy s!"failed to serialize traefik config: {e}"))
  | .ok text =>
    .call (.write self.configPath text) fun
      | .error e => .ret (.error (.proxy
          s!"failed to write traefik config {self.configPath}: {e.text}"))
      | .ok () => .ret (.ok ())

/-- Take one domain out of the file; without a file there is nothing to do. -/
def removeRoute (self : TraefikBackend) (yaml : Yaml) (domain : String) :
    Prog fileSig (Except ProxyError Unit) :=
  .call (.read self.configPath) fun
    | .error e =>
      if e.notFound then .ret (.ok ())
      else .ret (.error (.proxy s!"failed to read traefik config: {e.text}"))
    | .ok content =>
      match yaml.fromStr content with
      | .error e => .ret (.error (.proxy s!"failed to parse traefik config: {e}"))
      | .ok config =>
        match yaml.toString (dropRoute config domain) with
        | .error e => .ret (.error (.proxy s!"failed to serialize traefik config: {e}"))
        | .ok text =>
          .call (.write self.configPath text) fun
            | .error e => .ret (.error (.proxy s!"failed to rewrite traefik config: {e.text}"))
            | .ok () => .ret (.ok ())

end TraefikBackend

end Nexad.Proxy
