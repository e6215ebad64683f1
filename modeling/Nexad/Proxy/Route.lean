import Nexad.Base.Maps

/-!
# Routes

What a reverse proxy is told: for each domain its upstreams and its TLS mode.
Four backends write this into the configuration of four programs.

`RouteTable` says what the two calls of a backend mean: `apply_routes`
replaces the table by the list it is given, the last route of a repeated
domain winning, and `remove_route` takes one domain out.
-/

namespace Nexad.Proxy

/-- One address behind a route. -/
structure Upstream where
  address : String
  weight : UInt32
  deriving DecidableEq, Repr

/-- Where a route's certificate comes from. -/
inductive TlsConfig where
  | none
  | auto (email : String)
  | manual (cert key : String)
  deriving DecidableEq, Repr

/-- A domain and what serves it. -/
structure RouteConfig where
  domain : String
  upstream : List Upstream
  tls : TlsConfig
  deriving DecidableEq, Repr

/-- The error a backend answers with, `NexaError::Proxy`. -/
inductive ProxyError where
  | proxy (message : String)
  deriving DecidableEq, Repr

/-- The calls that change a backend's configuration. -/
inductive ProxyCall where
  | applyRoutes (routes : List RouteConfig)
  | removeRoute (domain : String)
  deriving DecidableEq, Repr

/-- The route each domain has. -/
abbrev RouteTable := Finmap fun _ : String => RouteConfig

namespace RouteTable

/-- The table of a list: its last route for each domain. -/
def ofList (routes : List RouteConfig) : RouteTable :=
  Maps.insertAll RouteConfig.domain id routes ∅

/-- The table after one call. -/
def step (table : RouteTable) : ProxyCall → RouteTable
  | .applyRoutes routes => ofList routes
  | .removeRoute domain => table.erase domain

/-- The table after a sequence of calls on the empty one. -/
def after (calls : List ProxyCall) : RouteTable :=
  calls.foldl step ∅

end RouteTable

end Nexad.Proxy
