import OpenCodeRouter.Proxy.Url
import OpenCodeRouter.Config

namespace Strings

def hasSuffix (s suffix : List Char) : Bool :=
  suffix.isSuffixOf s

def trimSuffix (s suffix : List Char) : List Char :=
  if hasSuffix s suffix then s.take (s.length - suffix.length) else s

def beforeLastColon (host : List Char) : List Char :=
  if ':' ∈ host then ((host.reverse.dropWhile (· != ':')).drop 1).reverse else host

variable {s x suffix : List Char}

theorem hasSuffix_append : hasSuffix (x ++ suffix) suffix := by
  simp [hasSuffix, List.suffix_append]

theorem trimSuffix_append : trimSuffix (x ++ suffix) suffix = x := by
  simp [trimSuffix, hasSuffix_append]

theorem eq_append_of_hasSuffix (h : hasSuffix s suffix) : s = trimSuffix s suffix ++ suffix := by
  obtain ⟨x, rfl⟩ := List.isSuffixOf_iff_suffix.mp h
  rw [trimSuffix_append]

theorem beforeLastColon_of_not_mem (h : ':' ∉ x) : beforeLastColon x = x :=
  if_neg h

theorem beforeLastColon_append {rest : List Char} (h : ':' ∉ rest) :
    beforeLastColon (x ++ ':' :: rest) = x := by
  have hr : ∀ c ∈ rest.reverse, (c != ':') = true := fun c hc => by
    simpa using fun he : c = ':' => h (he ▸ List.mem_reverse.mp hc)
  simp [beforeLastColon, List.dropWhile_append_of_pos hr]

theorem dropWhile_ne_colon {l : List Char} (h : ':' ∈ l) :
    ∃ d, l.dropWhile (· != ':') = ':' :: d := by
  induction l with
  | nil => cases h
  | cons c l ih =>
    by_cases hc : c = ':'
    · exact ⟨l, by simp [hc]⟩
    · rw [List.dropWhile_cons_of_pos (by simpa using hc)]
      exact ih ((List.mem_cons.mp h).resolve_left (Ne.symm hc))

theorem beforeLastColon_cases (host : List Char) :
    ':' ∉ host ∧ beforeLastColon host = host ∨
      ∃ rest, ':' ∉ rest ∧ host = beforeLastColon host ++ ':' :: rest := by
  by_cases h : ':' ∈ host
  · obtain ⟨d, hd⟩ := dropWhile_ne_colon (List.mem_reverse.mpr h)
    have hsplit := List.takeWhile_append_dropWhile (· != ':') host.reverse
    have hT : ∀ c ∈ host.reverse.takeWhile (· != ':'), c ≠ ':' := fun c hc => by
      simpa using List.mem_takeWhile_imp hc
    generalize host.reverse.takeWhile (· != ':') = T at hsplit hT
    rw [hd] at hsplit
    have hhost : host = d.reverse ++ ':' :: T.reverse := by
      rw [← List.reverse_reverse host, ← hsplit]; simp
    refine .inr ⟨T.reverse, fun hc => hT _ (List.mem_reverse.mp hc) rfl, ?_⟩
    rw [beforeLastColon, if_pos h, hd]
    simpa using hhost
  · exact .inl ⟨h, if_neg h⟩

end Strings

structure Request where
  method : String
  host : String
  url : URL

structure OutRequest where
  urlHost : String
  url : URL
  host : String
  deriving DecidableEq, Repr

inductive Handler
  | proxy (b : Backend) (pathOverride : Bytes)
  | apiBackends
  | apiHealth
  | apiResolve
  | dashboard
  deriving DecidableEq, Repr

structure Router where
  registry : Registry
  cfg : Config

namespace Registry

def lookupBytes (r : Registry) (slug : Bytes) : Option Backend :=
  (r.backends.entries.find? (utf8 ·.1 = slug)).map (·.2)

end Registry

namespace Router

open Strings

def slugFromHost (rt : Router) (host : String) : String :=
  let hostname := beforeLastColon host.data
  if !hasSuffix hostname ".local".data then "" else
    let hostname := trimSuffix hostname ".local".data
    let suffix := '-' :: rt.cfg.username.data
    if !hasSuffix hostname suffix then "" else
      let slug := trimSuffix hostname suffix
      if slug = [] then "" else ⟨slug⟩

theorem slugFromHost_eq_iff {rt : Router} {host s : String} (hs : s ≠ "") :
    rt.slugFromHost host = s ↔ beforeLastColon host.data = (rt.cfg.domainFor s).data := by
  rw [Config.domainFor_data]
  dsimp only [slugFromHost]
  constructor
  · intro h
    split at h
    · exact absurd h.symm hs
    · next h₁ =>
      split at h
      · exact absurd h.symm hs
      · next h₂ =>
        split at h
        · exact absurd h.symm hs
        · subst h
          simp only [Bool.not_eq_true, Bool.not_eq_false'] at h₁ h₂
          rw [← eq_append_of_hasSuffix h₂, ← eq_append_of_hasSuffix h₁]
  · intro h
    have hd : s.data ≠ [] := fun he => hs (String.ext he)
    simp only [h, hasSuffix_append, trimSuffix_append, Bool.not_true, Bool.false_eq_true,
      ↓reduceIte, hd]

def slugFromPath (path : Bytes) : Bytes × Bytes :=
  let trimmed := if path.head? = some 47 then path.tail else path
  if trimmed = [] then ([], []) else
    match trimmed.span (· ≠ 47) with
    | (slug, []) => (slug, [47])
    | (slug, _ :: rest) => (slug, 47 :: rest)

theorem slugFromPath_cons_append {a v : Bytes} (ha : a ≠ []) (h47 : ∀ c ∈ a, c ≠ 47)
    (hv : v = [] ∨ v.head? = some 47) :
    slugFromPath (47 :: (a ++ v)) = (a, if v = [] then [47] else v) := by
  have hpos : ∀ c ∈ a, decide (c ≠ 47) = true := by simpa using h47
  have hstop : v.takeWhile (· ≠ 47) = [] ∧ (v = [] → v.dropWhile (· ≠ 47) = []) ∧
      (v ≠ [] → v.dropWhile (· ≠ 47) = v) := by
    rcases hv with rfl | hv
    · simp
    · obtain ⟨v, rfl⟩ := List.head?_eq_some_iff.mp hv
      simp
  simp only [slugFromPath, List.head?_cons, if_pos, List.tail_cons, List.append_eq_nil, ha,
    false_and, ↓reduceIte, List.span_eq_take_drop, List.takeWhile_append_of_pos hpos,
    List.dropWhile_append_of_pos hpos, hstop.1, List.append_nil]
  by_cases hv0 : v = []
  · simp [hv0]
  · obtain ⟨w, hw⟩ := List.head?_eq_some_iff.mp (hv.resolve_left hv0)
    simp [hstop.2.2 hv0, hw, hv0]

def serveHTTP (rt : Router) (req : Request) : Handler :=
  let hostSlug := rt.slugFromHost req.host
  match if hostSlug ≠ "" then rt.registry.lookup hostSlug else none with
  | some b => .proxy b []
  | none =>
    let (slug, remainder) := slugFromPath req.url.path
    match if slug ≠ [] then rt.registry.lookupBytes slug else none with
    | some b => .proxy b remainder
    | none =>
      if req.url.path = utf8 "/api/backends" then .apiBackends
      else if req.url.path = utf8 "/api/health" then .apiHealth
      else if req.url.path = utf8 "/api/resolve" then .apiResolve
      else .dashboard

theorem serveHTTP_of_host {rt : Router} {req : Request} {b : Backend}
    (hs : rt.slugFromHost req.host ≠ "") (hb : rt.registry.lookup (rt.slugFromHost req.host) = some b) :
    rt.serveHTTP req = .proxy b [] := by
  simp [serveHTTP, hs, hb]

theorem serveHTTP_of_path {rt : Router} {req : Request} {b : Backend} {slug rem : Bytes}
    (hh : rt.registry.lookup (rt.slugFromHost req.host) = none)
    (hp : slugFromPath req.url.path = (slug, rem)) (hs : slug ≠ [])
    (hb : rt.registry.lookupBytes slug = some b) :
    rt.serveHTTP req = .proxy b rem := by
  simp [serveHTTP, hh, hp, hs, hb]

-- The outbound URL: `ReverseProxy` runs `cleanQueryParams` on the query before it calls the `Rewrite`
-- hook, whose `SetURL` joins the target's empty path with the inbound one and keeps the query; a path
-- override then replaces the path.
def rewriteURL (url : URL) (pathOverride : Bytes) : URL :=
  let url := { url with rawQuery := URL.cleanQueryParams url.rawQuery }
  let (path, rawPath) := URL.joinURLPath ⟨[], [], [], false⟩ url
  let url := { url with path, rawPath }
  if pathOverride ≠ [] then { url with path := pathOverride, rawPath := [] } else url

theorem rewriteURL_of_ne_nil {url : URL} {pathOverride : Bytes} (h : pathOverride ≠ []) :
    rewriteURL url pathOverride =
      { url with rawQuery := URL.cleanQueryParams url.rawQuery, path := pathOverride, rawPath := [] } := by
  simp [rewriteURL, h]

theorem rewriteURL_nil_of_setPath {u url : URL} {p : Bytes} (h : u.setPath p = some url)
    (hv : URL.validEncoded p) (hp : p.head? = some 47) :
    rewriteURL url [] = { url with rawQuery := URL.cleanQueryParams url.rawQuery } := by
  have hj : URL.joinURLPath ⟨[], [], [], false⟩ { url with rawQuery := URL.cleanQueryParams url.rawQuery } =
      (url.path, url.rawPath) := URL.joinURLPath_empty_setPath (v := url) h hv hp
  simp [rewriteURL, hj]

-- `url.Parse` rejects the target `http://127.0.0.1:<port>` of a negative port.
def proxyTo (b : Backend) (req : Request) (pathOverride : Bytes) : Except String OutRequest :=
  if b.port < 0 then .error "internal error" else
    let target := "127.0.0.1:" ++ toString b.port
    .ok ⟨target, rewriteURL req.url pathOverride, target⟩

theorem proxyTo_of_nonneg {b : Backend} (h : 0 ≤ b.port) (req : Request) (pathOverride : Bytes) :
    proxyTo b req pathOverride =
      .ok ⟨"127.0.0.1:" ++ toString b.port, rewriteURL req.url pathOverride,
        "127.0.0.1:" ++ toString b.port⟩ :=
  if_neg (not_lt.mpr h)

def forward (rt : Router) (method host : String) (target : Bytes) : Option (String × Bytes) := do
  let url ← URL.parseRequestURI target
  let req : Request := ⟨method, host, url⟩
  match rt.serveHTTP req with
  | .proxy b pathOverride =>
    match proxyTo b req pathOverride with
    | .ok out => some (out.urlHost, out.url.requestURI)
    | .error _ => none
  | _ => none

theorem forward_of_proxy {rt : Router} {method host : String} {target : Bytes} {url : URL}
    {b : Backend} {pathOverride : Bytes} (hp : URL.parseRequestURI target = some url)
    (hs : rt.serveHTTP ⟨method, host, url⟩ = .proxy b pathOverride) (hport : 0 ≤ b.port) :
    rt.forward method host target =
      some ("127.0.0.1:" ++ toString b.port, (rewriteURL url pathOverride).requestURI) := by
  simp [forward, hp, hs, proxyTo_of_nonneg hport]

end Router
