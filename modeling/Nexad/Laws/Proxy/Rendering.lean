import Nexad.Proxy.Backend

/-!
# What a rendering says of a route

How much of a route can be told from its rendering, backend by backend
(`renderConfig_eq_iff` and its siblings): nexa-proxy's has all of it. nginx and
Traefik write a weight only above one, so that zero reads as one; Traefik leaves
the certificate out; Caddy says that there are weights, and not which.
-/

namespace Nexad.Proxy

/-! ## Routes -/

/-- White space, a brace or a semicolon: what ends a word of a configuration file. -/
def endsWord (c : Char) : Bool :=
  Text.isWhiteSpace c || c = '\x7b' || c = '\x7d' || c = ';'

/-- A text that is one word. -/
def IsWord (s : String) : Prop := ∀ c ∈ s.toList, endsWord c = false

instance (s : String) : Decidable (IsWord s) :=
  decidable_of_iff ((s.toList.all fun c => endsWord c = false) = true) (by simp [IsWord])

namespace TlsConfig

/-- The email address or the paths are words. -/
def Words : TlsConfig → Prop
  | .none => True
  | .auto email => IsWord email
  | .manual cert key => IsWord cert ∧ IsWord key

/-- The mode without the email address. -/
def withoutEmail : TlsConfig → TlsConfig
  | .none => .none
  | .auto _ => .auto ""
  | .manual cert key => .manual cert key

/-- The mode without the email address and the paths. -/
def mode : TlsConfig → TlsConfig
  | .none => .none
  | .auto _ => .auto ""
  | .manual _ _ => .manual "" ""

end TlsConfig

namespace RouteConfig

/-- The upstream addresses, in order. -/
def addresses (route : RouteConfig) : List String := route.upstream.map Upstream.address

/-- Their weights. -/
def weights (route : RouteConfig) : List UInt32 := route.upstream.map Upstream.weight

/-- The texts that a renderer puts between others are words. -/
structure Words (route : RouteConfig) : Prop where
  addresses : ∀ address ∈ route.addresses, IsWord address
  tls : route.tls.Words

/-- The weights of a list are those of another, but for a common factor. -/
def Proportional (ws ws' : List UInt32) : Prop :=
  ∃ a b : Nat, 0 < a ∧ 0 < b ∧ ws.map (a * ·.toNat) = ws'.map (b * ·.toNat)

/-- The routes serve the same upstreams, in the same proportion, with the same
TLS mode and the same certificate and key. -/
structure SameService (route route' : RouteConfig) : Prop where
  addresses : route.addresses = route'.addresses
  weights : Proportional route.weights route'.weights
  tls : route.tls.withoutEmail = route'.tls.withoutEmail

end RouteConfig

/-- A weight as it is written by the backends that leave out one. -/
def writtenWeight (w : UInt32) : UInt32 := if w > 1 then w else 1

/-- A list of upstreams is its addresses and its weights. -/
theorem upstream_ext {ups ups' : List Upstream} (haddress : ups.map Upstream.address = ups'.map Upstream.address)
    (hweight : ups.map Upstream.weight = ups'.map Upstream.weight) : ups = ups' := by
  induction ups generalizing ups' with
  | nil => exact (List.map_eq_nil_iff.mp haddress.symm).symm
  | cons up ups ih =>
    cases ups' with
    | nil => cases haddress
    | cons up' ups' =>
      obtain ⟨ha, haddress⟩ := List.cons.inj haddress
      obtain ⟨hw, hweight⟩ := List.cons.inj hweight
      rw [ih haddress hweight]
      cases up
      cases up'
      cases ha
      cases hw
      rfl

/-- An upstream as these backends write it. -/
def written (up : Upstream) : Upstream := ⟨up.address, writtenWeight up.weight⟩

/-- As they are written, upstreams are addresses and written weights. -/
theorem map_written_eq_iff {route route' : RouteConfig} :
    route.upstream.map written = route'.upstream.map written ↔
      route.addresses = route'.addresses ∧
        route.weights.map writtenWeight = route'.weights.map writtenWeight := by
  have haddress : ∀ route : RouteConfig, (route.upstream.map written).map Upstream.address =
      route.addresses := fun route => List.map_map
  have hweight : ∀ route : RouteConfig, (route.upstream.map written).map Upstream.weight =
      route.weights.map writtenWeight := fun route => by
    rw [RouteConfig.weights, List.map_map, List.map_map]
    rfl
  constructor
  · intro h
    rw [← haddress, ← haddress, ← hweight, ← hweight, h]
    exact ⟨rfl, rfl⟩
  · rintro ⟨haddresses, hweights⟩
    refine upstream_ext ?_ ?_
    · rw [haddress, haddress, haddresses]
    · rw [hweight, hweight, hweights]

/-! ## nginx -/

namespace NginxBackend

/-- The end of a server line. -/
def weightText (w : UInt32) : String :=
  if w > 1 then " weight=" ++ (w.toNat.repr ++ ";\n") else ";\n"

def serverText (up : Upstream) : String := "    server " ++ (up.address ++ weightText up.weight)

theorem renderUpstream_eq (route : RouteConfig) : renderUpstream route =
    "upstream " ++ (domainUnderscored route.domain ++ (" \x7b\n" ++
      (String.join (route.upstream.map serverText) ++ "\x7d\n\n"))) := by
  have hserver : (route.upstream.map fun up =>
      if up.weight > 1 then s!"    server {up.address} weight={up.weight.toNat};\n"
      else s!"    server {up.address};\n") = route.upstream.map serverText := by
    refine List.map_congr_left fun up _ => ?_
    unfold serverText weightText
    split
    · simp only [String.append_assoc]
      rfl
    · simp only [String.append_assoc]
      rfl
  rw [renderUpstream, hserver]
  simp only [String.append_assoc]
  rfl

private theorem endsWord_digit {c : Char} (h : c.isDigit = true) : endsWord c = false := by
  have hrange : 48 ≤ c.toNat ∧ c.toNat ≤ 57 := by
    simp only [Char.isDigit, Bool.and_eq_true, decide_eq_true_eq, UInt32.le_iff_toNat_le] at h
    exact h
  have hall : ∀ n : Fin 58, 48 ≤ n.val → endsWord (Char.ofNat n.val) = false := by decide
  rw [← Char.ofNat_toNat c]
  exact hall ⟨c.toNat, by omega⟩ hrange.1

private theorem digits_word (n : Nat) : IsWord n.repr := by
  intro c hc
  rw [Nat.toList_repr] at hc
  exact endsWord_digit (List.all_eq_true.mp (Text.toDigits_all_isDigit n) c hc)

private theorem begins_weightText (w : UInt32) : Text.beginsWith endsWord (weightText w) = true := by
  unfold weightText
  split
  · exact Text.beginsWith_append rfl _
  · rfl

private theorem serverText_written (up : Upstream) : serverText (written up) = serverText up := by
  have hweight : weightText (writtenWeight up.weight) = weightText up.weight := by
    unfold weightText writtenWeight
    by_cases hw : up.weight > 1
    · rw [if_pos hw, if_pos hw]
    · rw [if_neg hw, if_neg hw]
      rfl
  rw [serverText, written, hweight]
  rfl

/-- What a server line says of the weight. -/
theorem weightText_inj {w w' : UInt32} {s s' : String} (h : weightText w ++ s = weightText w' ++ s') :
    writtenWeight w = writtenWeight w' ∧ s = s' := by
  unfold weightText at h
  unfold writtenWeight
  by_cases hw : w > 1
  · by_cases hw' : w' > 1
    · rw [if_pos hw, if_pos hw'] at h ⊢
      simp only [String.append_assoc, String.append_right_inj] at h
      obtain ⟨hdigits, hs⟩ := Text.append_inj_of_stop (digits_word _) (digits_word _)
        (Text.beginsWith_append rfl _) (Text.beginsWith_append rfl _) h
      have hlist := congrArg String.toList hdigits
      rw [Nat.toList_repr, Nat.toList_repr] at hlist
      exact ⟨UInt32.toNat_inj.mp (Text.toDigits_injective hlist), (String.append_right_inj _).mp hs⟩
    · rw [if_pos hw, if_neg hw', String.append_assoc] at h
      exact absurd h (Text.append_ne_append 0 (by decide) (by decide) (by decide) _ _)
  · by_cases hw' : w' > 1
    · rw [if_neg hw, if_pos hw', String.append_assoc] at h
      exact absurd h (Text.append_ne_append 0 (by decide) (by decide) (by decide) _ _)
    · rw [if_neg hw, if_neg hw'] at h ⊢
      exact ⟨rfl, (String.append_right_inj _).mp h⟩

/-- Server lines, up to the brace that ends them. -/
theorem serverTexts_inj {ups ups' : List Upstream} {s s' : String}
    (hwords : ∀ up ∈ ups, IsWord up.address) (hwords' : ∀ up ∈ ups', IsWord up.address)
    (h : String.join (ups.map serverText) ++ ("\x7d\n\n" ++ s) =
      String.join (ups'.map serverText) ++ ("\x7d\n\n" ++ s')) :
    ups.map Upstream.address = ups'.map Upstream.address ∧
      (ups.map Upstream.weight).map writtenWeight = (ups'.map Upstream.weight).map writtenWeight ∧
      s = s' := by
  induction ups generalizing ups' with
  | nil =>
    cases ups' with
    | nil =>
      simp only [List.map_nil, String.join_nil, String.empty_append, String.append_right_inj] at h
      exact ⟨rfl, rfl, h⟩
    | cons up' ups' =>
      rw [List.map_cons, String.join_cons, serverText] at h
      simp only [List.map_nil, String.join_nil, String.empty_append, String.append_assoc] at h
      exact absurd h (Text.append_ne_append 0 (by decide) (by decide) (by decide) _ _)
  | cons up ups ih =>
    cases ups' with
    | nil =>
      rw [List.map_cons, String.join_cons, serverText] at h
      simp only [List.map_nil, String.join_nil, String.empty_append, String.append_assoc] at h
      exact absurd h (Text.append_ne_append 0 (by decide) (by decide) (by decide) _ _)
    | cons up' ups' =>
      rw [List.map_cons, List.map_cons, String.join_cons, String.join_cons, serverText, serverText] at h
      simp only [String.append_assoc, String.append_right_inj] at h
      obtain ⟨haddress, h⟩ := Text.append_inj_of_stop (hwords up List.mem_cons_self)
        (hwords' up' List.mem_cons_self) (Text.beginsWith_append (begins_weightText _) _)
        (Text.beginsWith_append (begins_weightText _) _) h
      obtain ⟨hweight, h⟩ := weightText_inj h
      obtain ⟨haddresses, hweights, hs⟩ := ih (fun u hu => hwords u (List.mem_cons_of_mem _ hu))
        (fun u hu => hwords' u (List.mem_cons_of_mem _ hu)) h
      refine ⟨?_, ?_, hs⟩
      · rw [List.map_cons, List.map_cons, haddress, haddresses]
      · rw [List.map_cons, List.map_cons, List.map_cons, List.map_cons, hweight, hweights]

/-- The server blocks of a TLS mode. -/
def serverBlocks (domain : String) : TlsConfig → String
  | .none =>
    "server \x7b\n" ++ ("    listen 80;\n" ++ ("    server_name " ++ (domain ++ (";\n\n" ++
      renderLocation domain))))
  | .auto email =>
    "server \x7b\n" ++ ("    listen 80;\n" ++ ("    server_name " ++ (domain ++ (";\n\n" ++
      ("    location /.well-known/acme-challenge/ \x7b\n" ++ ("        root /var/www/certbot;\n" ++
      ("    \x7d\n\n" ++ (renderRedirect ++ ("server \x7b\n" ++ ("    listen 443 ssl;\n" ++
      ("    server_name " ++ (domain ++ (";\n\n" ++
      ("    ssl_certificate /etc/letsencrypt/live/" ++ (domain ++ ("/fullchain.pem;\n" ++
      ("    ssl_certificate_key /etc/letsencrypt/live/" ++ (domain ++ ("/privkey.pem;\n" ++
      ("    # Managed by Certbot for " ++ (email ++ ("\n\n" ++
      renderLocation domain))))))))))))))))))))))
  | .manual cert key =>
    "server \x7b\n" ++ ("    listen 80;\n" ++ ("    server_name " ++ (domain ++ (";\n\n" ++
      (renderRedirect ++ ("server \x7b\n" ++ ("    listen 443 ssl;\n" ++
      ("    server_name " ++ (domain ++ (";\n\n" ++
      ("    ssl_certificate " ++ (cert ++ (";\n" ++
      ("    ssl_certificate_key " ++ (key ++ (";\n\n" ++
      renderLocation domain))))))))))))))))

theorem renderConfig_eq (route : RouteConfig) :
    renderConfig route = renderUpstream route ++ serverBlocks route.domain route.tls := by
  unfold renderConfig serverBlocks
  cases route.tls with
  | none =>
    simp only [String.append_assoc]
    rfl
  | auto email =>
    simp only [String.append_assoc]
    rfl
  | manual cert key =>
    simp only [String.append_assoc]
    rfl

private theorem renderLocation_begins (domain : String) : ∃ rest, renderLocation domain =
    "    location / \x7b\n" ++ ("        proxy_pass http://" ++ rest) := by
  unfold renderLocation
  simp only [String.append_assoc]
  exact ⟨_, rfl⟩

private theorem renderRedirect_begins : ∃ rest, renderRedirect =
    "    location / \x7b\n" ++ ("        return 301 https://$host$request_uri;\n" ++ rest) := by
  unfold renderRedirect
  simp only [String.append_assoc]
  exact ⟨_, rfl⟩

/-- A location that passes requests on is not one that redirects them. -/
theorem location_ne_redirect (domain s : String) : renderLocation domain ≠ renderRedirect ++ s := by
  obtain ⟨rest, hlocation⟩ := renderLocation_begins domain
  obtain ⟨rest', hredirect⟩ := renderRedirect_begins
  intro h
  rw [hlocation, hredirect, String.append_assoc, String.append_assoc, String.append_right_inj] at h
  exact absurd h (Text.append_ne_append 8 (by decide) (by decide) (by decide) _ _)

/-- One for the challenges of a certificate authority is neither. -/
theorem challenge_ne_location (domain s : String) :
    "    location /.well-known/acme-challenge/ \x7b\n" ++ s ≠ renderLocation domain := by
  obtain ⟨rest, hlocation⟩ := renderLocation_begins domain
  rw [hlocation]
  exact Text.append_ne_append 14 (by decide) (by decide) (by decide) _ _

theorem challenge_ne_redirect (s s' : String) :
    "    location /.well-known/acme-challenge/ \x7b\n" ++ s ≠ renderRedirect ++ s' := by
  obtain ⟨rest, hredirect⟩ := renderRedirect_begins
  rw [hredirect, String.append_assoc]
  exact Text.append_ne_append 14 (by decide) (by decide) (by decide) _ _

/-- The server blocks of a domain tell its TLS mode. -/
theorem serverBlocks_inj {domain : String} {tls tls' : TlsConfig} (hwords : tls.Words)
    (hwords' : tls'.Words) (h : serverBlocks domain tls = serverBlocks domain tls') : tls = tls' := by
  cases tls with
  | none =>
    cases tls' with
    | none => rfl
    | auto email =>
      simp only [serverBlocks, String.append_right_inj] at h
      exact absurd h.symm (challenge_ne_location domain _)
    | manual cert key =>
      simp only [serverBlocks, String.append_right_inj] at h
      exact absurd h (location_ne_redirect domain _)
  | auto email =>
    cases tls' with
    | none =>
      simp only [serverBlocks, String.append_right_inj] at h
      exact absurd h (challenge_ne_location domain _)
    | auto email' =>
      simp only [serverBlocks, String.append_right_inj, String.append_left_inj] at h
      rw [h]
    | manual cert key =>
      simp only [serverBlocks, String.append_right_inj] at h
      exact absurd h (challenge_ne_redirect _ _)
  | manual cert key =>
    cases tls' with
    | none =>
      simp only [serverBlocks, String.append_right_inj] at h
      exact absurd h.symm (location_ne_redirect domain _)
    | auto email =>
      simp only [serverBlocks, String.append_right_inj] at h
      exact absurd h.symm (challenge_ne_redirect _ _)
    | manual cert' key' =>
      simp only [serverBlocks, String.append_right_inj] at h
      obtain ⟨hcert, h⟩ := Text.append_inj_of_stop hwords.1 hwords'.1
        (Text.beginsWith_append rfl _) (Text.beginsWith_append rfl _) h
      simp only [String.append_right_inj, String.append_left_inj] at h
      rw [hcert, h]

/-- nginx: addresses and TLS mode as they are, weights as they are written. -/
theorem renderConfig_eq_iff {route route' : RouteConfig} (hdomain : route.domain = route'.domain)
    (hwords : route.Words) (hwords' : route'.Words) :
    renderConfig route = renderConfig route' ↔ route.addresses = route'.addresses ∧
      route.weights.map writtenWeight = route'.weights.map writtenWeight ∧ route.tls = route'.tls := by
  have hups : ∀ {route : RouteConfig}, route.Words → ∀ up ∈ route.upstream, IsWord up.address :=
    fun hwords up hup => hwords.addresses _ (List.mem_map_of_mem hup)
  rw [renderConfig_eq, renderConfig_eq, renderUpstream_eq, renderUpstream_eq, hdomain]
  simp only [String.append_assoc, String.append_right_inj]
  constructor
  · intro h
    obtain ⟨haddresses, hweights, h⟩ := serverTexts_inj (hups hwords) (hups hwords') h
    exact ⟨haddresses, hweights, serverBlocks_inj hwords.tls hwords'.tls h⟩
  · rintro ⟨haddresses, hweights, htls⟩
    have hwritten : ∀ ups : List Upstream, ups.map serverText = (ups.map written).map serverText := by
      intro ups
      rw [List.map_map]
      exact List.map_congr_left fun up _ => (serverText_written up).symm
    rw [hwritten, hwritten route'.upstream, map_written_eq_iff.mpr ⟨haddresses, hweights⟩, htls]

end NginxBackend

/-! ## Traefik and nexa-proxy -/

/-- Lists are told apart by what their elements are told apart by. -/
theorem map_eq_map_iff {α β γ : Type} {f : α → β} {g : α → γ}
    (h : ∀ a a', f a = f a' ↔ g a = g a') (l l' : List α) :
    l.map f = l'.map f ↔ l.map g = l'.map g := by
  induction l generalizing l' with
  | nil => cases l' <;> simp
  | cons a l ih =>
    cases l' with
    | nil => simp
    | cons a' l' => rw [List.map_cons, List.map_cons, List.map_cons, List.map_cons, List.cons.injEq,
        List.cons.injEq, h, ih]

private theorem insert_empty_inj {β : Type} {k : String} {b b' : β} :
    (∅ : Finmap fun _ : String => β).insert k b = (∅ : Finmap fun _ : String => β).insert k b' ↔ b = b' := by
  constructor
  · intro h
    have hlookup := congrArg (Finmap.lookup k) h
    rw [Finmap.lookup_insert, Finmap.lookup_insert] at hlookup
    exact Option.some.inj hlookup
  · rintro rfl
    rfl

namespace TraefikBackend

private theorem entryPointsAndTls_eq_iff (tls tls' : TlsConfig) :
    entryPointsAndTls tls = entryPointsAndTls tls' ↔ tls.mode = tls'.mode := by
  cases tls <;> cases tls' <;> simp [entryPointsAndTls, TlsConfig.mode]

private theorem server_eq_iff (up up' : Upstream) :
    (⟨"http://" ++ up.address, if up.weight > 1 then some up.weight else none⟩ : TraefikServer) =
        ⟨"http://" ++ up'.address, if up'.weight > 1 then some up'.weight else none⟩ ↔
      written up = written up' := by
  have hweight : ∀ w w' : UInt32, (if w > 1 then some w else none) = (if w' > 1 then some w' else none) ↔
      writtenWeight w = writtenWeight w' := by
    intro w w'
    unfold writtenWeight
    by_cases hw : w > 1
    · by_cases hw' : w' > 1
      · rw [if_pos hw, if_pos hw', if_pos hw, if_pos hw', Option.some.injEq]
      · rw [if_pos hw, if_neg hw', if_pos hw, if_neg hw']
        exact iff_of_false nofun fun h => absurd (h ▸ hw) (by decide)
    · by_cases hw' : w' > 1
      · rw [if_neg hw, if_pos hw', if_neg hw, if_pos hw']
        exact iff_of_false nofun fun h => absurd (h.symm ▸ hw') (by decide)
      · rw [if_neg hw, if_neg hw', if_neg hw, if_neg hw']
        exact iff_of_true rfl rfl
  rw [TraefikServer.mk.injEq, String.append_right_inj, hweight, written, written, Upstream.mk.injEq]

/-- Traefik: weights as they are written, and of the TLS mode only which it is. -/
theorem renderConfig_eq_iff {route route' : RouteConfig} (hdomain : route.domain = route'.domain) :
    renderConfig [route] = renderConfig [route'] ↔ route.addresses = route'.addresses ∧
      route.weights.map writtenWeight = route'.weights.map writtenWeight ∧
      route.tls.mode = route'.tls.mode := by
  have hrouter : router route = router route' ↔ route.tls.mode = route'.tls.mode := by
    rw [← entryPointsAndTls_eq_iff, router, router, hdomain, TraefikRouter.mk.injEq, Prod.ext_iff]
    simp only [true_and]
  have hservice : service route = service route' ↔
      route.upstream.map written = route'.upstream.map written := by
    rw [← map_eq_map_iff server_eq_iff, service, service, TraefikService.mk.injEq,
      TraefikLoadBalancer.mk.injEq]
    simp only [and_true]
    rfl
  have hsingle : ∀ route : RouteConfig, renderConfig [route] =
      ⟨⟨(∅ : Finmap fun _ : String => TraefikRouter).insert (routerName route.domain) (router route),
        (∅ : Finmap fun _ : String => TraefikService).insert (serviceName route.domain)
          (service route)⟩⟩ := fun _ => rfl
  rw [hsingle, hsingle, hdomain, TraefikDynamicConfig.mk.injEq, TraefikHttp.mk.injEq,
    insert_empty_inj, insert_empty_inj, hrouter, hservice, map_written_eq_iff]
  tauto

end TraefikBackend

namespace NexaProxyBackend

/-- nexa-proxy: everything. -/
theorem buildConfig_eq_iff (self : NexaProxyBackend) {route route' : RouteConfig}
    (hdomain : route.domain = route'.domain) :
    self.buildConfig [route] = self.buildConfig [route'] ↔ route.addresses = route'.addresses ∧
      route.weights = route'.weights ∧ route.tls = route'.tls := by
  have htls : ∀ tls tls' : TlsConfig, tlsOf tls = tlsOf tls' ↔ tls = tls' := by
    intro tls tls'
    cases tls <;> cases tls' <;> simp [tlsOf]
  have hups : route.upstream.map upstreamOf = route'.upstream.map upstreamOf ↔
      route.addresses = route'.addresses ∧ route.weights = route'.weights := by
    have hup : ∀ up up' : Upstream, upstreamOf up = upstreamOf up' ↔ id up = id up' := by
      intro up up'
      cases up
      cases up'
      simp [upstreamOf]
    rw [map_eq_map_iff hup, List.map_id, List.map_id]
    constructor
    · intro h
      rw [RouteConfig.addresses, RouteConfig.weights, h]
      exact ⟨rfl, rfl⟩
    · rintro ⟨haddresses, hweights⟩
      exact upstream_ext haddresses hweights
  have hsingle : ∀ route : RouteConfig, Maps.insertAll RouteConfig.domain routeOf [route] ∅ =
      (∅ : Finmap fun _ : String => NexaProxyRoute).insert route.domain (routeOf route) := fun _ => rfl
  rw [buildConfig, buildConfig, NexaProxyConfig.mk.injEq, hsingle, hsingle, hdomain,
    insert_empty_inj, routeOf, routeOf, NexaProxyRoute.mk.injEq, hups, htls]
  tauto

end NexaProxyBackend

/-! ## Caddy -/

namespace CaddyBackend

/-- Whether a weight is set that is written down. -/
def hasWeights (route : RouteConfig) : Bool := route.upstream.any fun u => u.weight > 1

/-- The policy and the checks of a block with several upstreams. -/
def checksText (weighted : Bool) : String :=
  " \x7b\n" ++ ((if weighted then "        lb_policy weighted_round_robin\n" else "") ++
    ("        health_uri /health\n" ++ ("        health_interval 10s\n" ++ "    \x7d\n")))

/-- The directive for some addresses. -/
def proxyText (addresses : List String) (weighted : Bool) : String :=
  "    reverse_proxy " ++ (" ".intercalate addresses ++
    if addresses.length > 1 then checksText weighted else "\n")

/-- The block of a route with upstreams. -/
def blockText (route : RouteConfig) : String :=
  renderHeader route ++ (proxyText route.addresses (hasWeights route) ++ "\x7d\n")

theorem renderBlock_eq {route : RouteConfig} (hne : route.upstream ≠ []) :
    renderBlock route = .ok (blockText route) := by
  have hproxy : renderProxy route = .ok (proxyText route.addresses (hasWeights route)) := by
    unfold renderProxy proxyText checksText hasWeights RouteConfig.addresses
    match hups : route.upstream with
    | [] => exact absurd hups hne
    | [up] => rfl
    | up :: up' :: ups =>
      simp only [List.length_cons, List.map_cons, gt_iff_lt, Nat.lt_add_left_iff_pos, Nat.succ_pos,
        if_true, List.length_map, String.append_assoc]
      rfl
  rw [renderBlock, hproxy, Slice.ok_bind, String.append_assoc]
  rfl

/-- Without upstreams there is no block. -/
theorem renderBlock_panics {route : RouteConfig} (hnone : route.upstream = []) :
    renderBlock route = .error .outOfRange := by
  rw [renderBlock, renderProxy, hnone]
  rfl

/-- Routes that have upstreams are rendered. -/
theorem renderCaddyfile_blocks {routes : List RouteConfig} (hne : ∀ route ∈ routes, route.upstream ≠ []) :
    renderCaddyfile routes = .ok ("\n".intercalate (routes.map blockText)) := by
  have hblocks : routes.mapM renderBlock = .ok (routes.map blockText) := by
    induction routes with
    | nil => rfl
    | cons route routes ih =>
      rw [List.mapM_cons, renderBlock_eq (hne route List.mem_cons_self),
        ih fun route' hroute' => hne route' (List.mem_cons_of_mem _ hroute')]
      rfl
  rw [renderCaddyfile, hblocks]
  rfl

/-- A route without upstreams takes the whole list down with it. -/
theorem renderCaddyfile_panics {routes : List RouteConfig} {route : RouteConfig} (hroute : route ∈ routes)
    (hnone : route.upstream = []) : renderCaddyfile routes = .error .outOfRange := by
  have hblocks : routes.mapM renderBlock = .error .outOfRange := by
    induction routes with
    | nil => exact absurd hroute List.not_mem_nil
    | cons first routes ih =>
      rw [List.mapM_cons]
      by_cases hfirst : first.upstream = []
      · rw [renderBlock_panics hfirst]
        rfl
      · rw [renderBlock_eq hfirst]
        rcases List.mem_cons.mp hroute with rfl | hroute
        · exact absurd hnone hfirst
        · rw [Slice.ok_bind, ih hroute]
          rfl
  rw [renderCaddyfile, hblocks]
  rfl

/-- A route with upstreams is rendered. -/
theorem renderCaddyfile_eq {route : RouteConfig} (hne : route.upstream ≠ []) :
    renderCaddyfile [route] =
      .ok (renderHeader route ++ (proxyText route.addresses (hasWeights route) ++ "\x7d\n")) :=
  renderCaddyfile_blocks fun _ hmem => List.mem_singleton.mp hmem ▸ hne

/-- The header of the block of a domain. -/
def headerText (domain : String) : TlsConfig → String
  | .none => "http://" ++ (domain ++ " \x7b\n")
  | .auto email => domain ++ (" \x7b\n" ++ ("    tls " ++ (email ++ "\n")))
  | .manual cert key => domain ++ (" \x7b\n" ++ ("    tls " ++ (cert ++ (" " ++ (key ++ "\n")))))

theorem renderHeader_eq (route : RouteConfig) :
    renderHeader route = headerText route.domain route.tls := by
  unfold renderHeader headerText
  cases route.tls with
  | none =>
    simp only [String.append_assoc]
    rfl
  | auto email =>
    simp only [String.append_assoc]
    rfl
  | manual cert key =>
    simp only [String.append_assoc]
    rfl

/-- A plain address is not the domain of another header, whatever the domain. -/
private theorem http_ne (domain s s' : String) :
    "http://" ++ (domain ++ s) ≠ domain ++ (" \x7b\n" ++ s') := by
  intro h
  have hlist := congrArg String.toList h
  have hbrace : " \x7b\n".toList = [' ', '\x7b', '\n'] := rfl
  simp only [String.toList_append, hbrace, List.cons_append] at hlist
  exact Text.prefixed_ne (by decide) (by decide) hlist

/-- The header of a block tells the TLS mode, and where the rest begins. -/
theorem headerText_inj {domain : String} {tls tls' : TlsConfig} (hwords : tls.Words)
    (hwords' : tls'.Words) {s s' : String} (h : headerText domain tls ++ s = headerText domain tls' ++ s') :
    tls = tls' ∧ s = s' := by
  have hline : ∀ t, Text.beginsWith endsWord ("\n" ++ t) = true :=
    fun t => Text.beginsWith_append rfl t
  have hblank : ∀ t, Text.beginsWith endsWord (" " ++ t) = true :=
    fun t => Text.beginsWith_append rfl t
  cases tls with
  | none =>
    cases tls' with
    | none => exact ⟨rfl, (String.append_right_inj _).mp h⟩
    | auto email =>
      simp only [headerText, String.append_assoc] at h
      exact absurd h (http_ne domain _ _)
    | manual cert key =>
      simp only [headerText, String.append_assoc] at h
      exact absurd h (http_ne domain _ _)
  | auto email =>
    cases tls' with
    | none =>
      simp only [headerText, String.append_assoc] at h
      exact absurd h.symm (http_ne domain _ _)
    | auto email' =>
      simp only [headerText, String.append_assoc, String.append_right_inj] at h
      obtain ⟨hemail, hrest⟩ := Text.append_inj_of_stop hwords hwords' (hline _) (hline _) h
      exact ⟨congrArg _ hemail, (String.append_right_inj _).mp hrest⟩
    | manual cert key =>
      simp only [headerText, String.append_assoc, String.append_right_inj] at h
      obtain ⟨-, h⟩ := Text.append_inj_of_stop hwords hwords'.1 (hline _) (hblank _) h
      exact absurd h (Text.append_ne_append 0 (by decide) (by decide) (by decide) _ _)
  | manual cert key =>
    cases tls' with
    | none =>
      simp only [headerText, String.append_assoc] at h
      exact absurd h.symm (http_ne domain _ _)
    | auto email =>
      simp only [headerText, String.append_assoc, String.append_right_inj] at h
      obtain ⟨-, h⟩ := Text.append_inj_of_stop hwords.1 hwords' (hblank _) (hline _) h
      exact absurd h (Text.append_ne_append 0 (by decide) (by decide) (by decide) _ _)
    | manual cert' key' =>
      simp only [headerText, String.append_assoc, String.append_right_inj] at h
      obtain ⟨hcert, hafter⟩ := Text.append_inj_of_stop hwords.1 hwords'.1 (hblank _) (hblank _) h
      rw [String.append_right_inj] at hafter
      obtain ⟨hkey, hrest⟩ := Text.append_inj_of_stop hwords.2 hwords'.2 (hline _) (hline _) hafter
      rw [hcert, hkey]
      exact ⟨rfl, (String.append_right_inj _).mp hrest⟩

/-- What the checks of a block say. -/
private theorem checksText_inj {weighted weighted' : Bool}
    (h : checksText weighted = checksText weighted') : weighted = weighted' := by
  cases weighted with
  | false =>
    cases weighted' with
    | false => rfl
    | true => exact absurd h (by decide)
  | true =>
    cases weighted' with
    | false => exact absurd h (by decide)
    | true => rfl

/-- Addresses that are joined by blanks are found again. -/
private theorem joined_inj {addresses addresses' : List String} (hne : addresses ≠ [])
    (hne' : addresses' ≠ []) (hwords : ∀ address ∈ addresses, IsWord address)
    (hwords' : ∀ address ∈ addresses', IsWord address)
    (h : " ".intercalate addresses = " ".intercalate addresses') : addresses = addresses' := by
  have hsplit : ∀ {l : List String}, l ≠ [] → (∀ address ∈ l, IsWord address) →
      (" ".intercalate l).toList.splitOn ' ' = l.map String.toList := by
    intro l hne hwords
    have hblank : " ".toList = [' '] := rfl
    rw [String.toList_intercalate, hblank]
    refine List.splitOn_intercalate ' ' ?_ (List.map_eq_nil_iff.not.mpr hne)
    intro text htext hmem
    obtain ⟨address, haddress, rfl⟩ := List.mem_map.mp htext
    exact absurd (hwords address haddress ' ' hmem) (by decide)
  have hmap := hsplit hne hwords
  rw [h, hsplit hne' hwords'] at hmap
  exact (List.map_injective_iff.mpr (fun _ _ => String.toList_injective) hmap).symm

/-- Joined words are one line. -/
private theorem joined_line {addresses : List String} (hwords : ∀ address ∈ addresses, IsWord address) :
    ∀ c ∈ (" ".intercalate addresses).toList, c ≠ '\n' := by
  induction addresses with
  | nil => exact fun c hc => absurd hc List.not_mem_nil
  | cons address more ih =>
    have hfirst : ∀ c ∈ address.toList, c ≠ '\n' := by
      rintro c hc rfl
      exact absurd (hwords address List.mem_cons_self _ hc) (by decide)
    cases more with
    | nil => exact hfirst
    | cons next more =>
      have hrest := ih fun a ha => hwords a (List.mem_cons_of_mem _ ha)
      rw [String.intercalate_cons_of_ne_nil (List.cons_ne_nil _ _)]
      intro c hc
      rw [String.toList_append, String.toList_append] at hc
      rcases List.mem_append.mp hc with hc | hc
      · rcases List.mem_append.mp hc with hc | hc
        · exact hfirst c hc
        · rw [List.mem_singleton.mp hc]
          decide
      · exact hrest c hc

/-- A single address, or the first of several and a blank. -/
private theorem joined_cases {addresses : List String} (hne : addresses ≠ []) :
    (∃ address, addresses = [address]) ∨ 1 < addresses.length ∧ ∃ address ∈ addresses, ∃ rest,
      " ".intercalate addresses = address ++ (" " ++ rest) := by
  match addresses with
  | [address] => exact .inl ⟨address, rfl⟩
  | address :: next :: more =>
    refine .inr ⟨Nat.lt_add_left_iff_pos.mpr (Nat.succ_pos _), address, List.mem_cons_self,
      " ".intercalate (next :: more), ?_⟩
    rw [String.intercalate_cons_of_ne_nil (List.cons_ne_nil _ _), String.append_assoc]

/-- One address is not several. -/
private theorem single_ne {address : String} {addresses : List String} {s : String}
    (hword : IsWord address) (hwords : ∀ address ∈ addresses, IsWord address)
    (hmany : ∃ first ∈ addresses, ∃ rest, " ".intercalate addresses = first ++ (" " ++ rest)) :
    address ++ "\n" ≠ " ".intercalate addresses ++ s := by
  obtain ⟨first, hfirst, rest, hjoined⟩ := hmany
  rw [hjoined, String.append_assoc, String.append_assoc]
  intro h
  obtain ⟨-, h⟩ := Text.append_inj_of_stop hword (hwords first hfirst) (by rfl)
    (Text.beginsWith_append rfl _) h
  rw [← String.append_empty (s := "\n")] at h
  exact absurd h (Text.append_ne_append 0 (by decide) (by decide) (by decide) _ _)

/-- The directive tells the addresses, and of several whether they have weights. -/
theorem proxyText_inj {addresses addresses' : List String} {weighted weighted' : Bool}
    (hne : addresses ≠ []) (hne' : addresses' ≠ []) (hwords : ∀ address ∈ addresses, IsWord address)
    (hwords' : ∀ address ∈ addresses', IsWord address)
    (h : proxyText addresses weighted = proxyText addresses' weighted') :
    addresses = addresses' ∧ (1 < addresses.length → weighted = weighted') := by
  unfold proxyText at h
  rw [String.append_right_inj] at h
  rcases joined_cases hne with ⟨address, rfl⟩ | ⟨hlength, hmany⟩
  · rcases joined_cases hne' with ⟨address', rfl⟩ | ⟨hlength', hmany'⟩
    · have hsame : address = address' := (String.append_left_inj "\n").mp h
      exact ⟨by rw [hsame], fun hlt => absurd hlt (Nat.lt_irrefl 1)⟩
    · exact absurd h (single_ne (hwords address List.mem_cons_self) hwords' hmany')
  · rcases joined_cases hne' with ⟨address', rfl⟩ | ⟨hlength', hmany'⟩
    · exact absurd h.symm (single_ne (hwords' address' List.mem_cons_self) hwords hmany)
    · rw [if_pos hlength, if_pos hlength'] at h
      -- the first line ends with the brace after the addresses
      have hbrace : " \x7b\n" = " \x7b" ++ "\n" := by decide
      have hline : ∀ {l : List String}, (∀ address ∈ l, IsWord address) →
          ∀ c ∈ (" ".intercalate l ++ " \x7b").toList, decide (c = '\n') = false := by
        intro l hl c hc
        rw [String.toList_append] at hc
        rcases List.mem_append.mp hc with hc | hc
        · exact decide_eq_false (joined_line hl c hc)
        · have hall : (" \x7b".toList.all fun c => !decide (c = '\n')) = true := rfl
          have hother := List.all_eq_true.mp hall c hc
          rwa [Bool.not_eq_true'] at hother
      have hcut : ∀ joined t : String, joined ++ (" \x7b" ++ t) = (joined ++ " \x7b") ++ t :=
        fun _ _ => String.append_assoc.symm
      unfold checksText at h
      rw [hbrace, String.append_assoc, String.append_assoc, hcut, hcut] at h
      obtain ⟨hjoined, hchecks⟩ := Text.append_inj_of_stop (hline hwords) (hline hwords')
        (Text.beginsWith_append rfl _) (Text.beginsWith_append rfl _) h
      refine ⟨joined_inj hne hne' hwords hwords' ((String.append_left_inj _).mp hjoined), fun _ => ?_⟩
      refine checksText_inj ?_
      rw [checksText, checksText, hbrace, String.append_assoc, String.append_assoc, hchecks]

/-- Caddy: addresses and TLS mode as they are, and of several upstreams whether
any has a weight above one. -/
theorem renderCaddyfile_eq_iff {route route' : RouteConfig} (hdomain : route.domain = route'.domain)
    (hne : route.upstream ≠ []) (hne' : route'.upstream ≠ []) (hwords : route.Words)
    (hwords' : route'.Words) :
    renderCaddyfile [route] = renderCaddyfile [route'] ↔ route.addresses = route'.addresses ∧
      (1 < route.addresses.length → hasWeights route = hasWeights route') ∧ route.tls = route'.tls := by
  rw [renderCaddyfile_eq hne, renderCaddyfile_eq hne', renderHeader_eq, renderHeader_eq, hdomain,
    Except.ok.injEq]
  constructor
  · intro h
    obtain ⟨htls, hproxy⟩ := headerText_inj hwords.tls hwords'.tls h
    obtain ⟨haddresses, hweights⟩ := proxyText_inj (List.map_eq_nil_iff.not.mpr hne)
      (List.map_eq_nil_iff.not.mpr hne') hwords.addresses hwords'.addresses
      ((String.append_left_inj _).mp hproxy)
    exact ⟨haddresses, hweights, htls⟩
  · rintro ⟨haddresses, hweights, htls⟩
    have hproxy : proxyText route.addresses (hasWeights route) =
        proxyText route'.addresses (hasWeights route') := by
      rw [← haddresses]
      unfold proxyText
      split
      · next hmany => rw [hweights hmany]
      · rfl
    rw [htls, hproxy]

end CaddyBackend

/-! ## What is carried -/

private theorem weight_eq_of_written {w w' : UInt32} {a b : Nat} (ha : 0 < a) (hb : 0 < b)
    (hproportion : a * w.toNat = b * w'.toNat) (hwritten : writtenWeight w = writtenWeight w') :
    w = w' := by
  have hsmall : ∀ {v : UInt32}, ¬ v > 1 → v.toNat = 0 ∨ v.toNat = 1 := by
    intro v hv
    have hle : v.toNat ≤ 1 := Nat.not_lt.mp hv
    omega
  have hone : (1 : UInt32).toNat = 1 := rfl
  unfold writtenWeight at hwritten
  apply UInt32.toNat_inj.mp
  by_cases hw : w > 1
  · by_cases hw' : w' > 1
    · rw [if_pos hw, if_pos hw'] at hwritten
      rw [hwritten]
    · rw [if_pos hw, if_neg hw'] at hwritten
      exact absurd (hwritten ▸ hw) (by decide)
  · by_cases hw' : w' > 1
    · rw [if_neg hw, if_pos hw'] at hwritten
      exact absurd (hwritten.symm ▸ hw') (by decide)
    · rcases hsmall hw with h | h <;> rcases hsmall hw' with h' | h' <;> rw [h, h'] at hproportion ⊢
      · omega
      · omega

/-- Weights that are written alike are in proportion only if they are the same. -/
theorem proportional_iff_of_written {ws ws' : List UInt32}
    (h : ws.map writtenWeight = ws'.map writtenWeight) :
    RouteConfig.Proportional ws ws' ↔ ws = ws' := by
  constructor
  · rintro ⟨a, b, ha, hb, hproportion⟩
    induction ws generalizing ws' with
    | nil => exact (List.map_eq_nil_iff.mp h.symm).symm
    | cons w ws ih =>
      cases ws' with
      | nil => cases h
      | cons w' ws' =>
        obtain ⟨hhead, htail⟩ := List.cons.inj h
        obtain ⟨hhead', htail'⟩ := List.cons.inj hproportion
        rw [weight_eq_of_written ha hb hhead' hhead, ih htail htail']
  · rintro rfl
    exact ⟨1, 1, Nat.one_pos, Nat.one_pos, rfl⟩

namespace ProxyBackend

/-- The routes, each alone, are rendered alike. -/
def SameRendering (route route' : RouteConfig) : ProxyBackend → Prop
  | .nginx _ => NginxBackend.renderConfig route = NginxBackend.renderConfig route'
  | .caddy _ => CaddyBackend.renderCaddyfile [route] = CaddyBackend.renderCaddyfile [route']
  | .traefik _ _ => TraefikBackend.renderConfig [route] = TraefikBackend.renderConfig [route']
  | .nexaProxy backend _ => backend.buildConfig [route] = backend.buildConfig [route']

/-- The routes differ in what the backend leaves out, and in nothing that it
writes: nginx in weights of zero and one, Traefik also in certificates, Caddy in
weights beyond whether any is above one, and of a single upstream in its weight. -/
def Confuses (route route' : RouteConfig) : ProxyBackend → Prop
  | .nginx _ => route.addresses = route'.addresses ∧ route.tls = route'.tls ∧
      route.weights.map writtenWeight = route'.weights.map writtenWeight ∧
      route.weights ≠ route'.weights
  | .caddy _ => route.addresses = route'.addresses ∧ route.tls = route'.tls ∧
      (1 < route.addresses.length → CaddyBackend.hasWeights route = CaddyBackend.hasWeights route') ∧
      ¬ RouteConfig.Proportional route.weights route'.weights
  | .traefik _ _ => route.addresses = route'.addresses ∧ route.tls.mode = route'.tls.mode ∧
      route.weights.map writtenWeight = route'.weights.map writtenWeight ∧
      (route.weights ≠ route'.weights ∨ route.tls.withoutEmail ≠ route'.tls.withoutEmail)
  | .nexaProxy _ _ => False

/-- Routes of one domain that are rendered alike serve the same, exactly if they
do not differ in what the backend leaves out. -/
theorem rendering_carries_iff (backend : ProxyBackend) {route route' : RouteConfig}
    (hdomain : route.domain = route'.domain) (hne : route.upstream ≠ [])
    (hne' : route'.upstream ≠ []) (hwords : route.Words) (hwords' : route'.Words) :
    (backend.SameRendering route route' → route.SameService route') ↔
      ¬ backend.Confuses route route' := by
  cases backend with
  | nginx backend =>
    rw [SameRendering, Confuses, NginxBackend.renderConfig_eq_iff hdomain hwords hwords']
    constructor
    · rintro h ⟨haddresses, htls, hwritten, hweights⟩
      have hsame := h ⟨haddresses, hwritten, htls⟩
      exact hweights ((proportional_iff_of_written hwritten).mp hsame.weights)
    · rintro h ⟨haddresses, hwritten, htls⟩
      refine ⟨haddresses, (proportional_iff_of_written hwritten).mpr ?_, by rw [htls]⟩
      by_contra hweights
      exact h ⟨haddresses, htls, hwritten, hweights⟩
  | caddy backend =>
    rw [SameRendering, Confuses, CaddyBackend.renderCaddyfile_eq_iff hdomain hne hne' hwords hwords']
    constructor
    · rintro h ⟨haddresses, htls, hflag, hweights⟩
      exact hweights (h ⟨haddresses, hflag, htls⟩).weights
    · rintro h ⟨haddresses, hflag, htls⟩
      refine ⟨haddresses, ?_, by rw [htls]⟩
      by_contra hweights
      exact h ⟨haddresses, htls, hflag, hweights⟩
  | traefik backend yaml =>
    rw [SameRendering, Confuses, TraefikBackend.renderConfig_eq_iff hdomain]
    constructor
    · rintro h ⟨haddresses, hmode, hwritten, hdiffer⟩
      have hsame := h ⟨haddresses, hwritten, hmode⟩
      rcases hdiffer with hweights | htls
      · exact hweights ((proportional_iff_of_written hwritten).mp hsame.weights)
      · exact htls hsame.tls
    · rintro h ⟨haddresses, hwritten, hmode⟩
      refine ⟨haddresses, (proportional_iff_of_written hwritten).mpr ?_, ?_⟩
      · by_contra hweights
        exact h ⟨haddresses, hmode, hwritten, .inl hweights⟩
      · by_contra htls
        exact h ⟨haddresses, hmode, hwritten, .inr htls⟩
  | nexaProxy backend json =>
    rw [SameRendering, Confuses, backend.buildConfig_eq_iff hdomain]
    constructor
    · exact fun _ h => h
    · rintro - ⟨haddresses, hweights, htls⟩
      refine ⟨haddresses, ?_, by rw [htls]⟩
      rw [hweights]
      exact ⟨1, 1, Nat.one_pos, Nat.one_pos, rfl⟩

/-- The routes of an application, for some weights and a TLS mode. -/
def appRoute (weight weight' : UInt32) (tls : TlsConfig) : RouteConfig :=
  ⟨"app.example", [⟨"10.0.0.1:80", weight⟩, ⟨"10.0.0.2:80", weight'⟩], tls⟩

private theorem appRoute_words (weight weight' : UInt32) : (appRoute weight weight' .none).Words := by
  refine ⟨fun address haddress => ?_, trivial⟩
  have hall : ∀ address ∈ ["10.0.0.1:80", "10.0.0.2:80"], IsWord address := by decide
  exact hall address haddress

private theorem appRoute_ne (weight weight' : UInt32) (tls : TlsConfig) :
    (appRoute weight weight' tls).upstream ≠ [] :=
  List.cons_ne_nil _ _

/-- Twice the weights are the same proportion. -/
theorem rendering_carries_app :
    (ProxyBackend.caddy ⟨"/etc/caddy/Caddyfile"⟩).SameRendering (appRoute 3 1 .none) (appRoute 6 2 .none) ∧
      (appRoute 3 1 .none).SameService (appRoute 6 2 .none) := by
  have hsame : (ProxyBackend.caddy ⟨"/etc/caddy/Caddyfile"⟩).SameRendering (appRoute 3 1 .none)
      (appRoute 6 2 .none) :=
    (CaddyBackend.renderCaddyfile_eq_iff rfl (appRoute_ne _ _ _) (appRoute_ne _ _ _) (appRoute_words _ _)
      (appRoute_words _ _)).mpr ⟨rfl, fun _ => rfl, rfl⟩
  have hdomain : (appRoute 3 1 .none).domain = (appRoute 6 2 .none).domain := rfl
  refine ⟨hsame, (rendering_carries_iff (.caddy ⟨"/etc/caddy/Caddyfile"⟩) hdomain (appRoute_ne _ _ _)
    (appRoute_ne _ _ _) (appRoute_words _ _) (appRoute_words _ _)).mpr ?_ hsame⟩
  rintro ⟨-, -, -, hweights⟩
  exact hweights ⟨2, 1, by decide, by decide, by decide⟩

/-- Weights of three to one and of one to five for Caddy, a certificate for
Traefik, and a weight of zero for nginx. -/
theorem rendering_loses :
    ((ProxyBackend.caddy ⟨"/etc/caddy/Caddyfile"⟩).SameRendering (appRoute 3 1 .none)
        (appRoute 1 5 .none) ∧ ¬ (appRoute 3 1 .none).SameService (appRoute 1 5 .none)) ∧
      ((∀ yaml, (ProxyBackend.traefik ⟨"/etc/traefik/nexa.yml"⟩ yaml).SameRendering
          (appRoute 1 1 (.manual "/certs/a.pem" "/certs/a.key"))
          (appRoute 1 1 (.manual "/certs/b.pem" "/certs/b.key"))) ∧
        ¬ (appRoute 1 1 (.manual "/certs/a.pem" "/certs/a.key")).SameService
          (appRoute 1 1 (.manual "/certs/b.pem" "/certs/b.key"))) ∧
      ((ProxyBackend.nginx ⟨"/etc/nginx/conf.d"⟩).SameRendering (appRoute 1 0 .none)
          (appRoute 1 1 .none) ∧ ¬ (appRoute 1 0 .none).SameService (appRoute 1 1 .none)) := by
  refine ⟨⟨?_, fun h => ?_⟩, ⟨fun yaml => ?_, fun h => ?_⟩, ⟨?_, fun h => ?_⟩⟩
  · exact (CaddyBackend.renderCaddyfile_eq_iff rfl (appRoute_ne _ _ _) (appRoute_ne _ _ _)
      (appRoute_words _ _) (appRoute_words _ _)).mpr ⟨rfl, fun _ => rfl, rfl⟩
  · obtain ⟨a, b, ha, hb, hproportion⟩ := h.weights
    simp [RouteConfig.weights, appRoute] at hproportion
    omega
  · exact (TraefikBackend.renderConfig_eq_iff rfl).mpr ⟨rfl, rfl, rfl⟩
  · exact absurd h.tls (by decide)
  · exact (NginxBackend.renderConfig_eq_iff rfl (appRoute_words _ _) (appRoute_words _ _)).mpr
      ⟨rfl, rfl, rfl⟩
  · obtain ⟨a, b, ha, hb, hproportion⟩ := h.weights
    simp [RouteConfig.weights, appRoute] at hproportion
    omega

end ProxyBackend

end Nexad.Proxy
