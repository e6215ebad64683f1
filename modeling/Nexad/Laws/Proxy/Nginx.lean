import Nexad.Proxy.Nginx

/-!
# The nginx files against the route table

`apply_routes` adds and overwrites files and never deletes one, so the files
of an earlier list outlive it. The directory shows the route table exactly
when the last applied list, or a removal after it, names every domain that
had a file before (`agrees_iff`).
-/

namespace Nexad.Proxy

open Interleave

/-! ## Route tables -/

namespace RouteTable

theorem lookup_ofList_eq_none_iff {routes : List RouteConfig} {domain : String} :
    (ofList routes).lookup domain = none ↔ domain ∉ routes.map RouteConfig.domain := by
  rw [ofList, Maps.lookup_insertAll_eq_none_iff]
  simp

end RouteTable

namespace NginxBackend

/-- The files after a call that succeeded. -/
def effect (self : NginxBackend) (fs : Files) : ProxyCall → Files
  | .applyRoutes routes =>
    Maps.insertAll (fun route => self.confPath route.domain) renderConfig routes fs
  | .removeRoute domain => fs.erase (self.confPath domain)

theorem confPath_injective (self : NginxBackend) {d d' : String}
    (h : self.confPath d = self.confPath d') : d = d' := by
  have hname : ∀ {x y : String}, Text.joinPath self.confDir x = Text.joinPath self.confDir y → x = y := by
    intro x y hxy
    apply String.toList_injective
    unfold Text.joinPath at hxy
    split at hxy <;>
      simpa [String.toList_append] using congrArg String.toList hxy
  apply String.toList_injective
  simpa [String.toList_append] using congrArg String.toList (hname h)

theorem applyRoutes_ok_iff (self : NginxBackend) (routes : List RouteConfig) (fs fs' : Files) :
    (self.applyRoutes routes).ExecFiles fs (.ok ()) fs' ↔
      fs' = self.effect fs (.applyRoutes routes) := by
  induction routes generalizing fs with
  | nil =>
    constructor
    · intro h
      cases h
      rfl
    · intro h
      cases h
      exact .ret _ _
  | cons route routes ih =>
    constructor
    · intro h
      cases h with
      | call answered rest =>
        cases answered with
        | write => exact (ih _).mp rest
        | writeFailed => cases rest
        | writeTorn => cases rest
    · intro h
      exact .call (.write _ _) ((ih _).mpr h)

private theorem erase_of_notMem {fs : Files} {path : String} (h : path ∉ fs) :
    fs.erase path = fs := by
  apply Finmap.ext_lookup
  intro x
  by_cases hx : x = path
  · rw [hx, Finmap.lookup_erase, Finmap.lookup_eq_none.mpr h]
  · rw [Finmap.lookup_erase_ne hx]

theorem removeRoute_ok_iff (self : NginxBackend) (domain : String) (fs fs' : Files) :
    (self.removeRoute domain).ExecFiles fs (.ok ()) fs' ↔
      fs' = self.effect fs (.removeRoute domain) := by
  constructor
  · intro h
    cases h with
    | call answered rest =>
      cases answered with
      | removeFile => cases rest; rfl
      | removeMissing _ missing =>
        cases rest
        exact (erase_of_notMem missing).symm
      | removeFailed => cases rest
  · intro h
    rw [h, effect]
    by_cases hmem : self.confPath domain ∈ fs
    · exact .call (.removeFile hmem) (.ret _ _)
    · rw [erase_of_notMem hmem]
      exact .call (.removeMissing "" hmem) (.ret _ _)

theorem serve_ok_iff (self : NginxBackend) (c : ProxyCall) (fs fs' : Files) :
    (self.serve c).ExecFiles fs (.ok ()) fs' ↔ fs' = self.effect fs c := by
  cases c with
  | applyRoutes routes => exact self.applyRoutes_ok_iff routes fs fs'
  | removeRoute domain => exact self.removeRoute_ok_iff domain fs fs'

/-- A sequence of successful calls determines the files. -/
theorem serves_iff (self : NginxBackend) (calls : List ProxyCall) (fs fs' : Files) :
    self.Serves fs calls fs' ↔ fs' = calls.foldl self.effect fs := by
  induction calls generalizing fs with
  | nil =>
    constructor
    · intro h
      cases h
      rfl
    · intro h
      cases h
      exact .nil _
  | cons c calls ih =>
    constructor
    · intro h
      cases h with
      | cons hc hcs =>
        rw [(self.serve_ok_iff c _ _).mp hc] at hcs
        exact (ih _).mp hcs
    · intro h
      exact .cons ((self.serve_ok_iff c _ _).mpr rfl) ((ih _).mpr h)

/-! ## Files and table -/

/-- The directory shows the table: each domain's file is that of its route,
and a domain without a route has none. -/
def Shows (self : NginxBackend) (fs : Files) (table : RouteTable) : Prop :=
  ∀ domain, fs.lookup (self.confPath domain) = (table.lookup domain).map renderConfig

/-- A list of routes shows over whatever files were there. -/
theorem lookup_applyRoutes (self : NginxBackend) (routes : List RouteConfig) (fs : Files)
    (domain : String) : (self.effect fs (.applyRoutes routes)).lookup (self.confPath domain) =
      (((RouteTable.ofList routes).lookup domain).map renderConfig).or
        (fs.lookup (self.confPath domain)) := by
  have hkey : ∀ route : RouteConfig, self.confPath route.domain = self.confPath domain ↔
      route.domain = domain :=
    fun route => ⟨self.confPath_injective, fun h => h ▸ rfl⟩
  simp only [effect, RouteTable.ofList, Maps.lookup_insertAll, hkey, Finmap.lookup_empty,
    Option.or_none, Option.map_map]
  rfl

private theorem lookup_removeRoutes (self : NginxBackend) (removed : List String) (fs : Files)
    (domain : String) :
    ((removed.map ProxyCall.removeRoute).foldl self.effect fs).lookup (self.confPath domain) =
      if domain ∈ removed then none else fs.lookup (self.confPath domain) := by
  induction removed generalizing fs with
  | nil => simp
  | cons r removed ih =>
    rw [List.map_cons, List.foldl_cons, ih, effect]
    by_cases hd : domain = r
    · subst hd
      simp [Finmap.lookup_erase]
    · rw [Finmap.lookup_erase_ne (fun h => hd (self.confPath_injective h))]
      simp [hd]

private theorem table_removeRoutes (removed : List String) (table : RouteTable)
    (domain : String) :
    ((removed.map ProxyCall.removeRoute).foldl RouteTable.step table).lookup domain =
      if domain ∈ removed then none else table.lookup domain := by
  induction removed generalizing table with
  | nil => simp
  | cons r removed ih =>
    rw [List.map_cons, List.foldl_cons, ih, RouteTable.step]
    by_cases hd : domain = r
    · subst hd
      simp [Finmap.lookup_erase]
    · rw [Finmap.lookup_erase_ne hd]
      simp [hd]

/-- Every sequence has a last `apply_routes`, or none. -/
private theorem last_applyRoutes (calls : List ProxyCall) :
    (∃ removed : List String, calls = removed.map .removeRoute) ∨
      ∃ (before : List ProxyCall) (routes : List RouteConfig) (removed : List String),
        calls = before ++ .applyRoutes routes :: removed.map .removeRoute := by
  induction calls using List.reverseRecOn with
  | nil => exact .inl ⟨[], rfl⟩
  | append_singleton calls c ih =>
    cases c with
    | applyRoutes routes => exact .inr ⟨calls, routes, [], rfl⟩
    | removeRoute domain =>
      rcases ih with ⟨removed, h⟩ | ⟨before, routes, removed, h⟩
      · exact .inl ⟨removed ++ [domain], by rw [h]; simp⟩
      · exact .inr ⟨before, routes, removed ++ [domain], by rw [h]; simp⟩

/-- What the last applied list has to say about the files it finds: it names
the domain of each, or a removal after it does. -/
def LastListComplete (self : NginxBackend) (calls : List ProxyCall) : Prop :=
  ∀ (before : List ProxyCall) (routes : List RouteConfig) (removed : List String) (fs : Files),
    calls = before ++ .applyRoutes routes :: removed.map .removeRoute →
    self.Serves ∅ before fs → ∀ domain, self.confPath domain ∈ fs →
      domain ∈ routes.map RouteConfig.domain ∨ domain ∈ removed

/-- The files a last list finds show through it exactly at the domains that
neither it nor a later removal names. -/
private theorem shows_last_iff (self : NginxBackend) (before : List ProxyCall)
    (routes : List RouteConfig) (removed : List String) :
    self.Shows
        ((before ++ ProxyCall.applyRoutes routes :: removed.map .removeRoute).foldl self.effect ∅)
        (RouteTable.after (before ++ ProxyCall.applyRoutes routes :: removed.map .removeRoute)) ↔
      ∀ domain, self.confPath domain ∈ before.foldl self.effect ∅ →
        domain ∈ routes.map RouteConfig.domain ∨ domain ∈ removed := by
  simp only [Shows, RouteTable.after, List.foldl_append, List.foldl_cons, lookup_removeRoutes,
    table_removeRoutes, lookup_applyRoutes, RouteTable.step]
  apply forall_congr'
  intro domain
  by_cases hremoved : domain ∈ removed
  · simp [hremoved]
  · simp only [hremoved, if_false, or_false]
    cases hroute : (RouteTable.ofList routes).lookup domain with
    | none =>
      have hmem := RouteTable.lookup_ofList_eq_none_iff.mp hroute
      simp [hmem, Finmap.lookup_eq_none]
    | some route =>
      have hmem : domain ∈ routes.map RouteConfig.domain := by
        by_contra hmem
        rw [RouteTable.lookup_ofList_eq_none_iff.mpr hmem] at hroute
        cases hroute
      simp [hmem]

/-- After a sequence of successful calls on an empty directory, the files show
the route table exactly when the last applied list was complete. -/
theorem shows_iff (self : NginxBackend) {calls : List ProxyCall} {fs : Files}
    (h : self.Serves ∅ calls fs) :
    self.Shows fs (RouteTable.after calls) ↔ self.LastListComplete calls := by
  rw [(self.serves_iff calls ∅ fs).mp h]
  constructor
  · intro hshows before routes removed fsb hcalls hbefore
    subst hcalls
    rw [(self.serves_iff before ∅ fsb).mp hbefore]
    exact (self.shows_last_iff before routes removed).mp hshows
  · intro hcomplete
    rcases last_applyRoutes calls with ⟨removed, rfl⟩ | ⟨before, routes, removed, rfl⟩
    · intro domain
      rw [RouteTable.after, lookup_removeRoutes, table_removeRoutes]
      simp
    · exact (self.shows_last_iff before routes removed).mpr
        (hcomplete before routes removed _ rfl ((self.serves_iff before ∅ _).mpr rfl))

/-- Dropping a domain from the list and then removing it shows. -/
theorem shows_dropped_removed :
    let self : NginxBackend := ⟨"/etc/nginx/conf.d"⟩
    let a : RouteConfig := ⟨"a.example.com", [⟨"10.0.0.1:8080", 1⟩], .none⟩
    let b : RouteConfig := ⟨"b.example.com", [⟨"10.0.0.2:8080", 1⟩], .none⟩
    let calls := [.applyRoutes [a], .applyRoutes [b], .removeRoute "a.example.com"]
    self.Shows (calls.foldl self.effect ∅) (RouteTable.after calls) := by
  intro self a b calls
  apply (self.shows_iff ((self.serves_iff calls ∅ _).mpr rfl)).mpr
  intro before routes removed fs hcalls hserves domain hmem
  right
  have hfs := (self.serves_iff before ∅ fs).mp hserves
  cases before with
  | nil =>
    rw [hfs] at hmem
    exact absurd hmem Finmap.notMem_empty
  | cons c before =>
    cases before with
    | nil =>
      simp only [calls, List.cons_append, List.nil_append, List.cons.injEq] at hcalls
      obtain ⟨rfl, -, hremoved⟩ := hcalls
      have hlast : removed = ["a.example.com"] := by
        cases removed with
        | nil => cases hremoved
        | cons r removed =>
          obtain ⟨hr, hnil⟩ := List.cons.inj hremoved
          cases hr
          rw [List.map_eq_nil_iff.mp hnil.symm]
      rw [hfs] at hmem
      have hpath := (Finmap.mem_insert.mp hmem).resolve_right Finmap.notMem_empty
      rw [self.confPath_injective hpath, hlast]
      exact List.mem_singleton.mpr rfl
    | cons c' before =>
      simp only [calls, List.cons_append, List.cons.injEq] at hcalls
      obtain ⟨-, -, hrest⟩ := hcalls
      cases before with
      | nil => cases hrest
      | cons => simp at hrest

/-- A second list without the first one's domain leaves that domain's file. -/
theorem dropped_route_still_served :
    let self : NginxBackend := ⟨"/etc/nginx/conf.d"⟩
    let a : RouteConfig := ⟨"a.example.com", [⟨"10.0.0.1:8080", 1⟩], .none⟩
    let b : RouteConfig := ⟨"b.example.com", [⟨"10.0.0.2:8080", 1⟩], .none⟩
    let calls := [.applyRoutes [a], .applyRoutes [b]]
    ∃ fs, self.Serves ∅ calls fs ∧
      fs.lookup "/etc/nginx/conf.d/nexa-a.example.com.conf" = some (renderConfig a) ∧
      (RouteTable.after calls).lookup "a.example.com" = none ∧
      ¬ self.Shows fs (RouteTable.after calls) := by
  intro self a b calls
  have hpath : self.confPath "a.example.com" = "/etc/nginx/conf.d/nexa-a.example.com.conf" := by
    decide
  have hfile : (calls.foldl self.effect ∅).lookup (self.confPath "a.example.com") =
      some (renderConfig a) := by
    show Finmap.lookup _ (Finmap.insert (self.confPath b.domain) _ (Finmap.insert _ _ ∅)) = _
    rw [Finmap.lookup_insert_of_ne _ (by decide), Finmap.lookup_insert]
  have htable : (RouteTable.after calls).lookup "a.example.com" = none := by decide
  refine ⟨_, (self.serves_iff calls ∅ _).mpr rfl, hpath ▸ hfile, htable, ?_⟩
  intro hshows
  have := hshows "a.example.com"
  rw [hfile, htable] at this
  cases this

end NginxBackend

end Nexad.Proxy
