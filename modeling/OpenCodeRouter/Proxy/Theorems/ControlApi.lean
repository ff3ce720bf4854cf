import OpenCodeRouter.Proxy.Api
import OpenCodeRouter.Proxy.Theorems.Routing

namespace Router

variable {rt : Router} {s : String} {b : Backend} {entries : List Registry.Entry}

theorem resolve_lookup (hr : rt.registry.Reachable) (h : entries.Perm rt.registry.backends.entries)
    {path name : String} (hb : rt.resolve entries path name = some b) :
    rt.registry.lookup b.slug = some b := by
  unfold resolve at hb
  split at hb
  · exact hr.indexed.lookupByPath h hb
  · rw [← (hr.indexed hb).1] at hb
    exact hb

theorem serveHTTP_pathPrefix (hr : rt.registry.Reachable) (hb : rt.registry.lookup s = some b)
    {m host : String} (hhost : rt.registry.lookup (rt.slugFromHost host) = none) {url : URL}
    (hpath : url.path = utf8 ("/" ++ s ++ "/")) : rt.serveHTTP ⟨m, host, url⟩ = .proxy b [47] := by
  have hs := (hr.wellKeyed hb).1
  have hp : url.path = 47 :: (utf8 s ++ [47]) := by rw [hpath, utf8_append, utf8_append]; rfl
  refine serveHTTP_of_path hhost ?_ hs.utf8_ne_nil ((hr.wellKeyed.lookupBytes_utf8 hs).trans hb)
  rw [hp, slugFromPath_cons_append hs.utf8_ne_nil (fun c hc => (hs.mem_utf8 hc).1)
    (.inr (rfl : [(47 : UInt8)].head? = some 47))]
  rfl

theorem resolve_reply_routes (hr : rt.registry.Reachable)
    (hperm : entries.Perm rt.registry.backends.entries)
    {method path name : String} {fields : List (String × Json)}
    (h : rt.handleAPIResolve entries method path name = .object 200 fields) :
    ∃ b, fields = rt.cfg.backendInfo b ∧ rt.registry.lookup b.slug = some b ∧
      (':' ∉ rt.cfg.username.data →
        ∀ m url, rt.serveHTTP ⟨m, rt.cfg.domainFor b.slug, url⟩ = .proxy b []) ∧
      ∀ m host (url : URL), rt.registry.lookup (rt.slugFromHost host) = none →
        url.path = utf8 ("/" ++ b.slug ++ "/") → rt.serveHTTP ⟨m, host, url⟩ = .proxy b [47] := by
  obtain ⟨b, hb, rfl⟩ := handleAPIResolve_eq_ok h
  have hl := resolve_lookup hr hperm hb
  exact ⟨b, rfl, hl, fun hcolon => serveHTTP_domainFor (hr.wellKeyed hl).1 hcolon hl,
    fun m host url hhost hpath => serveHTTP_pathPrefix hr hl hhost hpath⟩

theorem resolve_reply_routes_alice :
    aliceRouter.registry.Reachable ∧
      aliceRouter.registry.backends.entries.Perm aliceRouter.registry.backends.entries ∧
      aliceRouter.handleAPIResolve aliceRouter.registry.backends.entries "GET" "/home/alice/proj" "" =
        .object 200 (aliceRouter.cfg.backendInfo ⟨30001, "proj", "/home/alice/proj", "proj", "1", 0⟩) ∧
      ∃ b, aliceRouter.cfg.backendInfo ⟨30001, "proj", "/home/alice/proj", "proj", "1", 0⟩ =
          aliceRouter.cfg.backendInfo b ∧ aliceRouter.registry.lookup b.slug = some b ∧
        (':' ∉ aliceRouter.cfg.username.data →
          ∀ m url, aliceRouter.serveHTTP ⟨m, aliceRouter.cfg.domainFor b.slug, url⟩ = .proxy b []) ∧
        ∀ m host (url : URL), aliceRouter.registry.lookup (aliceRouter.slugFromHost host) = none →
          url.path = utf8 ("/" ++ b.slug ++ "/") → aliceRouter.serveHTTP ⟨m, host, url⟩ = .proxy b [47] :=
  have hr := (Registry.reachable_new _).upsert ..
  have hperm := List.Perm.refl _
  have h := by decide
  ⟨hr, hperm, h, resolve_reply_routes hr hperm h⟩

end Router
