import OpenCodeRouter.Discovery.Theorems.Sync
import OpenCodeRouter.Proxy.Theorems.Routing

namespace Strings

theorem beforeLastColon_append_or_count_le (x : List Char) {z : List Char} (hz : ':' ∉ z) :
    beforeLastColon (x ++ z) = x ++ z ∨ (beforeLastColon (x ++ z)).count '.' ≤ x.count '.' := by
  rcases beforeLastColon_cases (x ++ z) with ⟨-, h⟩ | ⟨rest, -, h⟩
  · exact .inl h
  · rcases List.append_eq_append_iff.mp h.symm with ⟨c, hx, -⟩ | ⟨c, -, hc⟩
    · have := congrArg (List.count '.') hx
      rw [List.count_append] at this
      exact .inr (by omega)
    · exact absurd (hc ▸ List.mem_append_right c (List.mem_cons_self _ _)) hz

end Strings

namespace Router

open Strings

variable {rt : Router} {a : Advertiser} {s t host : String}

-- A slug has no dot, so a hostname that host-routes to one has exactly one dot more than the user
-- name: that of `.local`.
theorem count_dot_of_slugFromHost (ht : IsSlug t) (h : rt.slugFromHost host = t) :
    (beforeLastColon host.data).count '.' = rt.cfg.username.data.count '.' + 1 := by
  rw [(slugFromHost_eq_iff ht.ne_empty).mp h, Config.domainFor_data]
  simp [List.count_eq_zero.mpr ht.dot_not_mem]

theorem serveHTTP_of_count_dot (hr : rt.registry.Reachable)
    (h : (beforeLastColon host.data).count '.' ≠ rt.cfg.username.data.count '.' + 1)
    (m : String) (url : URL) : rt.serveHTTP ⟨m, host, url⟩ = rt.serveHTTP ⟨m, "", url⟩ := by
  have hl : rt.registry.lookup (rt.slugFromHost host) = none := by
    cases hb : rt.registry.lookup (rt.slugFromHost host) with
    | none => rfl
    | some b => exact absurd (count_dot_of_slugFromHost (hr.wellKeyed hb).1 rfl) h
  have he : rt.slugFromHost "" = "" := rfl
  simp [serveHTTP, hl, he]

theorem count_dot_beforeLastColon_ne (hs : IsSlug s) {sfx : List Char} (hsfx : ':' ∉ sfx)
    (hd : 0 < sfx.count '.')
    (hhost : host.data = (rt.cfg.domainFor s).data ++ sfx ∨
      ∃ port, ':' ∉ port ∧ host.data = (rt.cfg.domainFor s).data ++ sfx ++ ':' :: port) :
    (beforeLastColon host.data).count '.' ≠ rt.cfg.username.data.count '.' + 1 := by
  have hx : (s.data ++ '-' :: rt.cfg.username.data).count '.' = rt.cfg.username.data.count '.' := by
    simp [List.count_eq_zero.mpr hs.dot_not_mem]
  have hN : (rt.cfg.domainFor s).data ++ sfx =
      (s.data ++ '-' :: rt.cfg.username.data) ++ (".local".data ++ sfx) := by
    rw [Config.domainFor_data, List.append_assoc]
  have hcount : ((rt.cfg.domainFor s).data ++ sfx).count '.' =
      rt.cfg.username.data.count '.' + 1 + sfx.count '.' := by
    rw [hN, List.count_append, hx, List.count_append, show ".local".data.count '.' = 1 by decide]
    omega
  rcases hhost with h | ⟨port, hp, h⟩ <;> rw [h]
  · have hz : ':' ∉ ".local".data ++ sfx := List.not_mem_append (by decide) hsfx
    rcases beforeLastColon_append_or_count_le (s.data ++ '-' :: rt.cfg.username.data) hz with h | h
    · rw [hN, h, ← hN, hcount]; omega
    · rw [hN]; omega
  · rw [beforeLastColon_append hp, hcount]; omega

theorem serveHTTP_published_hostName (hr : rt.registry.Reachable) (hs : IsSlug s) {name : String}
    (hn : name ∈ [rt.cfg.domainFor s ++ ".local.", rt.cfg.domainFor s ++ ".local"])
    (hhost : host = name ∨ ∃ port : String, ':' ∉ port.data ∧ host = name ++ ":" ++ port)
    (m : String) (url : URL) : rt.serveHTTP ⟨m, host, url⟩ = rt.serveHTTP ⟨m, "", url⟩ := by
  refine serveHTTP_of_count_dot hr ?_ m url
  obtain ⟨sfx, hsfx, hd, rfl⟩ : ∃ sfx : String, ':' ∉ sfx.data ∧ 0 < sfx.data.count '.' ∧
      name = rt.cfg.domainFor s ++ sfx := by
    simp only [List.mem_cons, List.mem_singleton, List.not_mem_nil, or_false] at hn
    rcases hn with rfl | rfl
    exacts [⟨_, by decide, by decide, rfl⟩, ⟨_, by decide, by decide, rfl⟩]
  refine count_dot_beforeLastColon_ne hs hsfx hd ?_
  rcases hhost with rfl | ⟨port, hp, rfl⟩
  exacts [.inl (String.data_append _ _), .inr ⟨port.data, hp, by simp⟩]

theorem advertised_hostname_unrouted (hr : rt.registry.Reachable) (ha : a.Reachable)
    (hcfg : a.cfg = rt.cfg) {entries : List Registry.Entry}
    (he : entries.Perm rt.registry.backends.entries) {es : List Advertiser.Entry}
    (hes : es.Perm a.servers.entries) (outcomes : Outcomes) {s : String} {srv : Server}
    (hs : (a.sync (Registry.all entries) es outcomes).servers.lookup s = some srv) :
    ∃ b, rt.registry.lookup s = some b ∧ srv.registration.instanceName = s ∧
      (':' ∉ rt.cfg.username.data →
        ∀ m url, rt.serveHTTP ⟨m, srv.registration.host, url⟩ = .proxy b []) ∧
      srv.registration.hostName = rt.cfg.domainFor s ++ ".local." ∧
      ∀ name ∈ [srv.registration.hostName, rt.cfg.domainFor s ++ ".local"], ∀ host,
        (host = name ∨ ∃ port : String, ':' ∉ port.data ∧ host = name ++ ":" ++ port) →
          ∀ m url, rt.serveHTTP ⟨m, host, url⟩ = rt.serveHTTP ⟨m, "", url⟩ := by
  have hstep : Advertiser.Step a (a.sync (Registry.all entries) es outcomes) := .sync _ _ hes _
  obtain ⟨b, hb, rfl⟩ := List.mem_map.mp (Advertiser.sync_lookup hes hs)
  have hl := hr.indexed.lookup_of_mem_all he hb
  have hslug := (hr.wellKeyed hl).1
  have hreg := (ha.step hstep).registered
  obtain ⟨hname, hhost, -⟩ := hreg hs
  have hpub := hreg.hostName hslug hs
  rw [hstep.cfg_eq.1, hcfg] at hhost hpub
  refine ⟨b, hl, hname, fun hcolon m url => hhost ▸ serveHTTP_domainFor hslug hcolon hl m url, hpub, ?_⟩
  rw [hpub]
  exact fun name hn host hh => serveHTTP_published_hostName hr hslug hn hh

def aliceAdvertiser : Advertiser :=
  Advertiser.new (Config.defaults (some "alice")) "192.168.1.10"

def projServer : Server :=
  ⟨0, Advertiser.registration (Config.defaults (some "alice")) "192.168.1.10"
    ⟨30001, "proj", "/home/alice/proj", "proj", "1", 0⟩⟩

theorem advertised_hostname_unrouted_alice :
    aliceRouter.registry.Reachable ∧ aliceAdvertiser.Reachable ∧ aliceAdvertiser.cfg = aliceRouter.cfg ∧
      aliceRouter.registry.backends.entries.Perm aliceRouter.registry.backends.entries ∧
      ([] : List Advertiser.Entry).Perm aliceAdvertiser.servers.entries ∧
      (aliceAdvertiser.sync (Registry.all aliceRouter.registry.backends.entries) []
          fun _ => .ok ()).servers.lookup "proj" = some projServer ∧
      ∃ b, aliceRouter.registry.lookup "proj" = some b ∧ projServer.registration.instanceName = "proj" ∧
        (':' ∉ aliceRouter.cfg.username.data →
          ∀ m url, aliceRouter.serveHTTP ⟨m, projServer.registration.host, url⟩ = .proxy b []) ∧
        projServer.registration.hostName = aliceRouter.cfg.domainFor "proj" ++ ".local." ∧
        ∀ name ∈ [projServer.registration.hostName, aliceRouter.cfg.domainFor "proj" ++ ".local"],
          ∀ host, (host = name ∨ ∃ port : String, ':' ∉ port.data ∧ host = name ++ ":" ++ port) →
            ∀ m url, aliceRouter.serveHTTP ⟨m, host, url⟩ = aliceRouter.serveHTTP ⟨m, "", url⟩ :=
  have hr := (Registry.reachable_new _).upsert ..
  have ha : aliceAdvertiser.Reachable := Advertiser.reachable_new _ _
  have hcfg : aliceAdvertiser.cfg = aliceRouter.cfg := rfl
  have he := List.Perm.refl _
  have hes := .nil
  have hs := by decide
  ⟨hr, ha, hcfg, he, hes, hs, advertised_hostname_unrouted hr ha hcfg he hes _ hs⟩

example : projServer.registration.hostName = "proj-alice.local.local." ∧
    aliceRouter.serveHTTP ⟨"GET", "proj-alice.local.local:8080", ⟨utf8 "/", [], [], false⟩⟩ = .dashboard := by
  decide

end Router
