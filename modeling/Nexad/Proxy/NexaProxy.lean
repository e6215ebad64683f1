import Nexad.Base.Files
import Nexad.Proxy.Route

/-!
# The nexa-proxy backend

One JSON file with a route for each domain, next to the addresses that the proxy
listens on. `apply_routes` writes the file whole; `remove_route` reads it, drops
a domain and writes it back. Writing and reading JSON is `serde_json`'s: `Json`
stands for it.

Between a configuration and its text are the fields of a JSON document. Which
of them are written, and what is made of those that are read, is said by the
`derive`s of the configuration's types: `Serde.json` is `Json` with these
spelled out, over the printing and parsing of documents alone.
-/

namespace Nexad.Proxy

open Interleave

structure NexaProxyUpstream where
  address : String
  weight : UInt32
  deriving DecidableEq, Repr

structure NexaProxyTls where
  certPath : Option String
  keyPath : Option String
  acmeEmail : Option String
  deriving DecidableEq, Repr

structure NexaProxyRoute where
  upstreams : List NexaProxyUpstream
  tls : Option NexaProxyTls
  deriving DecidableEq, Repr

/-- The configuration file. -/
structure NexaProxyConfig where
  httpListen : String
  httpsListen : Option String
  routes : Finmap fun _ : String => NexaProxyRoute
  deriving DecidableEq

/-- `serde_json` at the configuration's type. -/
structure Json where
  toStringPretty : NexaProxyConfig → Except String String
  fromStr : String → Except String NexaProxyConfig

/-- The configuration is read back from the text it is written as. -/
def Json.RoundTrips (json : Json) (config : NexaProxyConfig) : Prop :=
  ∃ text, json.toStringPretty config = .ok text ∧ json.fromStr text = .ok config

/-- `NexaProxyBackend`: the configuration file, and what is written in it. -/
structure NexaProxyBackend where
  configPath : String
  httpListen : String
  httpsListen : Option String
  deriving DecidableEq, Repr

namespace NexaProxyBackend

/-- An upstream with its weight, whatever it is. -/
def upstreamOf (u : Upstream) : NexaProxyUpstream := ⟨u.address, u.weight⟩

/-- The TLS section of a TLS mode. -/
def tlsOf : TlsConfig → Option NexaProxyTls
  | .none => none
  | .auto email => some ⟨none, none, some email⟩
  | .manual cert key => some ⟨some cert, some key, none⟩

/-- A route as the file has it. -/
def routeOf (route : RouteConfig) : NexaProxyRoute :=
  ⟨route.upstream.map upstreamOf, tlsOf route.tls⟩

/-- The configuration of a list of routes. -/
def buildConfig (self : NexaProxyBackend) (routes : List RouteConfig) : NexaProxyConfig :=
  ⟨self.httpListen, self.httpsListen, Maps.insertAll RouteConfig.domain routeOf routes ∅⟩

/-- Write a configuration over the file. -/
def writeConfigSync (self : NexaProxyBackend) (json : Json) (config : NexaProxyConfig) :
    Prog fileSig (Except ProxyError Unit) :=
  match json.toStringPretty config with
  | .error e => .ret (.error (.proxy s!"failed to serialize nexa-proxy config: {e}"))
  | .ok text =>
    .call (.write self.configPath text) fun
      | .error e => .ret (.error (.proxy
          s!"failed to write nexa-proxy config {self.configPath}: {e.text}"))
      | .ok () => .ret (.ok ())

def applyRoutes (self : NexaProxyBackend) (json : Json) (routes : List RouteConfig) :
    Prog fileSig (Except ProxyError Unit) :=
  self.writeConfigSync json (self.buildConfig routes)

/-- The configuration without a domain. -/
def dropRoute (config : NexaProxyConfig) (domain : String) : NexaProxyConfig :=
  { config with routes := config.routes.erase domain }

/-- Take one domain out of the file; if the file cannot be read, for whatever
reason, there is nothing to do. -/
def removeRoute (self : NexaProxyBackend) (json : Json) (domain : String) :
    Prog fileSig (Except ProxyError Unit) :=
  .call (.read self.configPath) fun
    | .error _ => .ret (.ok ())
    | .ok content =>
      match json.fromStr content with
      | .error e => .ret (.error (.proxy s!"failed to parse nexa-proxy config: {e}"))
      | .ok config => self.writeConfigSync json (dropRoute config domain)

end NexaProxyBackend

/-! ## The derived serializers -/

/-- A JSON document. -/
inductive JsonValue where
  | null
  | number (n : Nat)
  | string (s : String)
  | array (items : List JsonValue)
  | object (fields : List (String × JsonValue))

namespace JsonValue

/-- A field that is skipped if there is nothing in it. -/
def optionalField (name : String) (value : Option JsonValue) : List (String × JsonValue) :=
  (value.map fun v => (name, v)).toList

/-- The value of a field that may be missing, and may be there once. -/
def findField (name : String) (fields : List (String × JsonValue)) : Except String (Option JsonValue) :=
  match fields.filter fun field => field.1 = name with
  | [] => .ok none
  | [field] => .ok (some field.2)
  | _ => .error s!"duplicate field `{name}`"

/-- The value of a field that must be there. -/
def requiredField (name : String) (fields : List (String × JsonValue)) : Except String JsonValue := do
  match ← findField name fields with
  | none => .error s!"missing field `{name}`"
  | some value => .ok value

/-- An `Option` that is missing or null is `None`. -/
def readOption {α : Type} (read : JsonValue → Except String α) (name : String)
    (fields : List (String × JsonValue)) : Except String (Option α) := do
  match ← findField name fields with
  | none | some null => .ok none
  | some value => return some (← read value)

def readString : JsonValue → Except String String
  | string s => .ok s
  | _ => .error "invalid type, expected a string"

def readU32 : JsonValue → Except String UInt32
  | number n => if n < 2 ^ 32 then .ok (UInt32.ofNat n) else .error "invalid value, expected u32"
  | _ => .error "invalid type, expected u32"

/-- The fields of an object. -/
def readObject : JsonValue → Except String (List (String × JsonValue))
  | object fields => .ok fields
  | _ => .error "invalid type, expected an object"

def readArray : JsonValue → Except String (List JsonValue)
  | array items => .ok items
  | _ => .error "invalid type, expected a sequence"

end JsonValue

open JsonValue

def NexaProxyUpstream.toJson (u : NexaProxyUpstream) : JsonValue :=
  object [("address", string u.address), ("weight", number u.weight.toNat)]

def NexaProxyUpstream.fromJson (value : JsonValue) : Except String NexaProxyUpstream := do
  let fields ← readObject value
  let address ← readString (← requiredField "address" fields)
  let weight ← readU32 (← requiredField "weight" fields)
  return { address, weight }

def NexaProxyTls.toJson (tls : NexaProxyTls) : JsonValue :=
  object (optionalField "cert_path" (tls.certPath.map string) ++
    optionalField "key_path" (tls.keyPath.map string) ++
    optionalField "acme_email" (tls.acmeEmail.map string))

def NexaProxyTls.fromJson (value : JsonValue) : Except String NexaProxyTls := do
  let fields ← readObject value
  let certPath ← readOption readString "cert_path" fields
  let keyPath ← readOption readString "key_path" fields
  let acmeEmail ← readOption readString "acme_email" fields
  return { certPath, keyPath, acmeEmail }

def NexaProxyRoute.toJson (route : NexaProxyRoute) : JsonValue :=
  object (("upstreams", array (route.upstreams.map NexaProxyUpstream.toJson)) ::
    optionalField "tls" (route.tls.map NexaProxyTls.toJson))

def NexaProxyRoute.fromJson (value : JsonValue) : Except String NexaProxyRoute := do
  let fields ← readObject value
  let upstreams ← (← readArray (← requiredField "upstreams" fields)).mapM NexaProxyUpstream.fromJson
  let tls ← readOption NexaProxyTls.fromJson "tls" fields
  return { upstreams, tls }

/-- The configuration, whose routes are listed in some order. -/
def NexaProxyConfig.toJson (entries : (Finmap fun _ : String => NexaProxyRoute) → List (String × NexaProxyRoute))
    (config : NexaProxyConfig) : JsonValue :=
  object (("http_listen", string config.httpListen) ::
    (optionalField "https_listen" (config.httpsListen.map string) ++
      [("routes", object ((entries config.routes).map fun entry => (entry.1, entry.2.toJson)))]))

/-- One entry of a map, read. -/
def readEntry (field : String × JsonValue) : Except String (String × NexaProxyRoute) := do
  return (field.1, ← NexaProxyRoute.fromJson field.2)

def NexaProxyConfig.fromJson (value : JsonValue) : Except String NexaProxyConfig := do
  let fields ← readObject value
  let httpListen ← readString (← requiredField "http_listen" fields)
  let httpsListen ← readOption readString "https_listen" fields
  let entries ← (← readObject (← requiredField "routes" fields)).mapM readEntry
  return { httpListen, httpsListen, routes := Maps.insertAll Prod.fst Prod.snd entries ∅ }

/-- `serde_json` at documents, and the order in which a `HashMap` is gone through. -/
structure Serde where
  print : JsonValue → String
  parse : String → Except String JsonValue
  entries : (Finmap fun _ : String => NexaProxyRoute) → List (String × NexaProxyRoute)

/-- `serde_json` at the configuration's type, by way of a document. -/
def Serde.json (serde : Serde) : Json where
  toStringPretty config := .ok (serde.print (config.toJson serde.entries))
  fromStr text := do NexaProxyConfig.fromJson (← serde.parse text)

end Nexad.Proxy
