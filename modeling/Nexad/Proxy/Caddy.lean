import Nexad.Base.Files
import Nexad.Base.Lines
import Nexad.Base.Slice
import Nexad.Base.Text
import Nexad.Proxy.Route

/-!
# The Caddy backend

One Caddyfile with a block for each route. `apply_routes` writes it whole;
`remove_route` goes through its lines and leaves out a block, from the line that
opens it to the one where its braces are balanced again. A route without
upstreams cannot be rendered: its first address is looked up, and there is none.
-/

namespace Nexad.Proxy

open Interleave

/-- `CaddyBackend`: the configuration file. -/
structure CaddyBackend where
  caddyfilePath : String
  deriving DecidableEq, Repr

namespace CaddyBackend

/-- The line that opens the block of a route, and its TLS directive. -/
def renderHeader (route : RouteConfig) : String :=
  match route.tls with
  | .none => s!"http://{route.domain} \x7b\n"
  | .auto email => s!"{route.domain} \x7b\n" ++ s!"    tls {email}\n"
  | .manual cert key => s!"{route.domain} \x7b\n" ++ s!"    tls {cert} {key}\n"

/-- The directive that passes requests on: with a block of its own if there is
more than one upstream. -/
def renderProxy (route : RouteConfig) : Except Slice.Panic String :=
  let hasMultipleUpstreams := route.upstream.length > 1
  let hasWeights := route.upstream.any fun u => u.weight > 1
  let addrs := route.upstream.map Upstream.address
  if hasMultipleUpstreams then
    let joined := " ".intercalate addrs
    return s!"    reverse_proxy {joined} \x7b\n" ++
      (if hasWeights then "        lb_policy weighted_round_robin\n" else "") ++
      "        health_uri /health\n" ++
      "        health_interval 10s\n" ++
      "    \x7d\n"
  else do
    let addr ← Slice.index addrs 0
    return s!"    reverse_proxy {addr}\n"

/-- The block of a route. -/
def renderBlock (route : RouteConfig) : Except Slice.Panic String := do
  let proxy ← renderProxy route
  return renderHeader route ++ proxy ++ "\x7d\n"

/-- The blocks of a list of routes, with a blank line between them. -/
def renderCaddyfile (routes : List RouteConfig) : Except Slice.Panic String := do
  let blocks ← routes.mapM renderBlock
  return "\n".intercalate blocks

/-- Write the blocks of a list of routes over the file. -/
def applyRoutes (self : CaddyBackend) (routes : List RouteConfig) :
    Except Slice.Panic (Prog fileSig (Except ProxyError Unit)) := do
  let content ← renderCaddyfile routes
  return .call (.write self.caddyfilePath content) fun
    | .error e => .ret (.error (.proxy
        s!"failed to write Caddyfile {self.caddyfilePath}: {e.text}"))
    | .ok () => .ret (.ok ())

/-- The line opens a block of the domain. -/
def opensBlock (domain : String) (line : List Char) : Bool :=
  let trimmed := Text.trim line
  let isDomainLine :=
    (domain ++ " ").toList.isPrefixOf trimmed ||
    ("http://" ++ domain ++ " ").toList.isPrefixOf trimmed ||
    ("https://" ++ domain ++ " ").toList.isPrefixOf trimmed ||
    trimmed = domain.toList ||
    trimmed = ("http://" ++ domain).toList ||
    trimmed = ("https://" ++ domain).toList
  isDomainLine && trimmed.getLast? = some '\x7b'

/-- How deep the text is in braces after a character. -/
def brace (depth : Int) (c : Char) : Int :=
  if c = '\x7b' then depth + 1 else if c = '\x7d' then depth - 1 else depth

/-- The removal between two lines: the text that is kept, whether a block is
being skipped, and how deep in it the next line begins. -/
structure Scan where
  result : List Char
  skip : Bool
  braceDepth : Int
  deriving DecidableEq, Repr

/-- One line of the removal. -/
def scanLine (domain : String) (scan : Scan) (line : List Char) : Scan :=
  if !scan.skip && opensBlock domain line then { scan with skip := true, braceDepth := 1 }
  else if scan.skip then
    let braceDepth := line.foldl brace scan.braceDepth
    { scan with braceDepth := braceDepth, skip := !decide (braceDepth ≤ 0) }
  else { scan with result := scan.result ++ line ++ ['\n'] }

/-- The file without the blocks of a domain. -/
def withoutBlock (domain content : String) : String :=
  let scan := (Lines.lines content.toList).foldl (scanLine domain) ⟨[], false, 0⟩
  let trimmed := Text.trimEnd scan.result
  if trimmed = [] then "" else String.ofList (trimmed ++ ['\n'])

/-- Take one domain out of the file; without a file there is nothing to do. -/
def removeRoute (self : CaddyBackend) (domain : String) : Prog fileSig (Except ProxyError Unit) :=
  .call (.read self.caddyfilePath) fun
    | .error e =>
      if e.notFound then .ret (.ok ())
      else .ret (.error (.proxy s!"failed to read Caddyfile: {e.text}"))
    | .ok content =>
      .call (.write self.caddyfilePath (withoutBlock domain content)) fun
        | .error e => .ret (.error (.proxy s!"failed to rewrite Caddyfile: {e.text}"))
        | .ok () => .ret (.ok ())

end CaddyBackend

end Nexad.Proxy
