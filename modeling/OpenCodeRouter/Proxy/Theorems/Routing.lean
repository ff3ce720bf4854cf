import OpenCodeRouter.Proxy.Router
import OpenCodeRouter.Registry.Theorems.Coherence

theorem isSlugChar_iff_toNat {c : Char} :
    isSlugChar c ↔ 97 ≤ c.toNat ∧ c.toNat ≤ 122 ∨ 48 ≤ c.toNat ∧ c.toNat ≤ 57 ∨ c.toNat = 45 := by
  have hdash : c = '-' ↔ c.toNat = 45 :=
    ⟨fun h => h ▸ rfl, fun h => Char.ext (UInt32.eq_of_toBitVec_eq (BitVec.eq_of_toNat_eq h))⟩
  have : c.toNat = c.val.toBitVec.toNat := rfl
  simp [isSlugChar, Char.isLower, Char.isDigit, UInt32.le_def, BitVec.le_def, hdash]
  omega

namespace Char

theorem utf8EncodeChar_of_toNat_lt {c : Char} (h : c.toNat < 128) :
    String.utf8EncodeChar c = [c.val.toUInt8] := by
  have : c.val ≤ 127 := by
    rw [UInt32.le_def, BitVec.le_def]
    simpa [Char.toNat, UInt32.toNat] using Nat.le_of_lt_succ h
  simp [String.utf8EncodeChar, this]

theorem toNat_toUInt8_of_toNat_lt {c : Char} (h : c.toNat < 128) : c.val.toUInt8.toNat = c.toNat := by
  simp only [Char.toNat] at h ⊢
  simp [UInt32.toUInt8, Nat.toUInt8, UInt8.toNat, UInt8.ofNat]
  omega

end Char

namespace IsSlug

variable {s k : String}

theorem toNat_lt {c : Char} (h : isSlugChar c) : c.toNat < 128 := by
  have := isSlugChar_iff_toNat.mp h
  omega

theorem utf8_eq (hs : IsSlug s) : utf8 s = s.data.map (·.val.toUInt8) := by
  have h := hs.2
  unfold utf8
  generalize s.data = cs at h
  induction cs with
  | nil => rfl
  | cons c cs ih =>
    rw [List.flatMap_cons, Char.utf8EncodeChar_of_toNat_lt (toNat_lt (h c (.head _))),
      ih fun c hc => h c (.tail _ hc)]
    rfl

theorem utf8_ne_nil (hs : IsSlug s) : utf8 s ≠ [] := by
  simpa [hs.utf8_eq] using hs.1

theorem mem_utf8 (hs : IsSlug s) {x : UInt8} (hx : x ∈ utf8 s) :
    x ≠ 47 ∧ x ≠ 37 ∧ x ≠ 63 ∧ URL.shouldEscape x .path = false ∧ ¬(x < 32 ∨ x = 127) := by
  rw [hs.utf8_eq] at hx
  obtain ⟨c, hc, rfl⟩ := List.mem_map.mp hx
  have hb := isSlugChar_iff_toNat.mp (hs.2 c hc)
  rw [← Char.toNat_toUInt8_of_toNat_lt (toNat_lt (hs.2 c hc))] at hb
  refine ⟨?_, ?_, ?_, URL.shouldEscape_eq_false hb, ?_⟩ <;>
    simp only [ne_eq, UInt8.eq_iff_toNat_eq, UInt8.lt_iff_toNat_lt, UInt8.toNat_lit, Nat.reduceMod] <;>
    omega

theorem ne_empty (hs : IsSlug s) : s ≠ "" := fun h => hs.1 (by rw [h])

theorem colon_not_mem (hs : IsSlug s) : ':' ∉ s.data := fun h => by
  simpa using isSlugChar_iff_toNat.mp (hs.2 _ h)

theorem utf8_inj (hk : IsSlug k) (hs : IsSlug s) (h : utf8 k = utf8 s) : k = s := by
  have back : ∀ {t : String}, IsSlug t → (utf8 t).map (fun x => Char.ofNat x.toNat) = t.data :=
    fun ht => by
      rw [ht.utf8_eq, List.map_map]
      refine (List.map_congr_left fun c hc => ?_).trans (List.map_id _)
      simp [Char.toNat_toUInt8_of_toNat_lt (toNat_lt (ht.2 c hc))]
  exact String.ext (by rw [← back hk, h, back hs])

end IsSlug

namespace Registry

variable {r : Registry} {s : String}

theorem WellKeyed.lookupBytes_utf8 (hw : r.WellKeyed) (hs : IsSlug s) :
    r.lookupBytes (utf8 s) = r.lookup s := by
  have keys : ∀ e ∈ r.backends.entries, IsSlug e.1 := fun ⟨k, b⟩ he =>
    (hw (AList.mem_lookup_iff.mpr he)).1
  unfold lookupBytes lookup
  rw [AList.lookup]
  generalize r.backends.entries = l at keys
  induction l with
  | nil => rfl
  | cons e l ih =>
    obtain ⟨k, b⟩ := e
    by_cases hk : k = s
    · subst hk
      simp [List.find?_cons]
    · have hne : utf8 k ≠ utf8 s := fun h => hk ((keys ⟨k, b⟩ (.head _)).utf8_inj hs h)
      rw [List.find?_cons_of_neg _ (by simpa using hne), List.dlookup_cons_ne _ _ (Ne.symm hk)]
      exact ih fun e he => keys e (.tail _ he)

end Registry

namespace Router

open Strings

variable {rt : Router} {s : String} {b : Backend}

theorem colon_not_mem_domainFor (hs : IsSlug s) (hcolon : ':' ∉ rt.cfg.username.data) :
    ':' ∉ (rt.cfg.domainFor s).data := by
  rw [Config.domainFor_data]
  simp only [List.mem_append, List.mem_cons, not_or]
  exact ⟨⟨hs.colon_not_mem, by decide, hcolon⟩, by decide⟩

theorem slugFromHost_eq_iff_host {host : String} (hs : s ≠ "") :
    rt.slugFromHost host = s ↔ (':' ∉ host.data ∧ host = rt.cfg.domainFor s) ∨
      ∃ port : String, ':' ∉ port.data ∧ host = rt.cfg.domainFor s ++ ":" ++ port := by
  rw [slugFromHost_eq_iff hs]
  constructor
  · intro h
    rcases beforeLastColon_cases host.data with ⟨hc, he⟩ | ⟨rest, hc, he⟩
    · exact .inl ⟨hc, String.ext (he.symm.trans h)⟩
    · refine .inr ⟨⟨rest⟩, hc, String.ext ?_⟩
      rw [he, h]
      simp
  · rintro (⟨hc, rfl⟩ | ⟨port, hc, rfl⟩)
    · exact beforeLastColon_of_not_mem hc
    · simpa using beforeLastColon_append hc

theorem slugFromHost_domainFor (hs : IsSlug s) (hcolon : ':' ∉ rt.cfg.username.data)
    {port host : String} (hport : ':' ∉ port.data)
    (hhost : host = rt.cfg.domainFor s ∨ host = rt.cfg.domainFor s ++ ":" ++ port) :
    rt.slugFromHost host = s := by
  refine (slugFromHost_eq_iff_host hs.ne_empty).mpr ?_
  rcases hhost with rfl | rfl
  exacts [.inl ⟨colon_not_mem_domainFor hs hcolon, rfl⟩, .inr ⟨port, hport, rfl⟩]

theorem serveHTTP_domainFor (hs : IsSlug s) (hcolon : ':' ∉ rt.cfg.username.data)
    (hb : rt.registry.lookup s = some b) (m : String) (url : URL) :
    rt.serveHTTP ⟨m, rt.cfg.domainFor s, url⟩ = .proxy b [] :=
  have h := slugFromHost_domainFor hs hcolon (show ':' ∉ ("" : String).data from List.not_mem_nil _)
    (.inl rfl)
  serveHTTP_of_host (by rw [h]; exact hs.ne_empty) (by rw [h]; exact hb)

def aliceRouter : Router :=
  ⟨((Registry.new 30000000000).upsert 0 30001 "proj" "/home/alice/proj" "1").1,
    Config.defaults (some "alice")⟩

def colonRouter : Router :=
  { aliceRouter with cfg := { aliceRouter.cfg with username := "a:b" } }

theorem serveHTTP_routes_domainFor :
    (∀ {s b} {port : String}, rt.registry.Reachable → rt.registry.lookup s = some b →
      ':' ∉ rt.cfg.username.data → ':' ∉ port.data →
      ∀ host, host = rt.cfg.domainFor s ∨ host = rt.cfg.domainFor s ++ ":" ++ port →
        ∀ method url, rt.slugFromHost host = s ∧ rt.serveHTTP ⟨method, host, url⟩ = .proxy b []) ∧
    ∀ host s', s' ≠ "" → (rt.slugFromHost host = s' ↔ (':' ∉ host.data ∧ host = rt.cfg.domainFor s') ∨
      ∃ port : String, ':' ∉ port.data ∧ host = rt.cfg.domainFor s' ++ ":" ++ port) := by
  refine ⟨fun hr hb hcolon hport host hhost method url => ?_, fun _ _ => slugFromHost_eq_iff_host⟩
  have hs := (hr.wellKeyed hb).1
  have h := slugFromHost_domainFor hs hcolon hport hhost
  exact ⟨h, serveHTTP_of_host (h ▸ hs.ne_empty) (h ▸ hb)⟩

theorem serveHTTP_routes_domainFor_alice :
    aliceRouter.registry.Reachable ∧
      aliceRouter.registry.lookup "proj" = some ⟨30001, "proj", "/home/alice/proj", "proj", "1", 0⟩ ∧
      ':' ∉ aliceRouter.cfg.username.data ∧ ':' ∉ "8080".data ∧
      (∀ host, host = aliceRouter.cfg.domainFor "proj" ∨
          host = aliceRouter.cfg.domainFor "proj" ++ ":" ++ "8080" →
        ∀ method url, aliceRouter.slugFromHost host = "proj" ∧
          aliceRouter.serveHTTP ⟨method, host, url⟩ =
            .proxy ⟨30001, "proj", "/home/alice/proj", "proj", "1", 0⟩ []) ∧
      "proj" ≠ "" ∧
      (colonRouter.slugFromHost "proj-a:b.local:8080" = "proj" ↔
        (':' ∉ "proj-a:b.local:8080".data ∧ "proj-a:b.local:8080" = colonRouter.cfg.domainFor "proj") ∨
          ∃ port : String, ':' ∉ port.data ∧
            "proj-a:b.local:8080" = colonRouter.cfg.domainFor "proj" ++ ":" ++ port) :=
  have hr := (Registry.reachable_new _).upsert ..
  have hb := by decide
  have hc := by decide
  have hp := by decide
  have hs := by decide
  ⟨hr, hb, hc, hp, serveHTTP_routes_domainFor.1 hr hb hc hp, hs,
    serveHTTP_routes_domainFor.2 "proj-a:b.local:8080" "proj" hs⟩

theorem serveHTTP_domainFor_case_or_colon_misses :
    aliceRouter.registry.Reachable ∧ aliceRouter.cfg.validate = .ok () ∧
      aliceRouter.registry.lookup "proj" = some ⟨30001, "proj", "/home/alice/proj", "proj", "1", 0⟩ ∧
      aliceRouter.serveHTTP ⟨"GET", "PROJ-alice.local", ⟨[47], [], [], false⟩⟩ = .dashboard ∧
      colonRouter.cfg.validate = .ok () ∧
      colonRouter.serveHTTP ⟨"GET", colonRouter.cfg.domainFor "proj", ⟨[47], [], [], false⟩⟩ =
        .dashboard :=
  ⟨(Registry.reachable_new _).upsert .., rfl, by decide, by decide, rfl, by decide⟩

section Forward

variable {m host : String} {t u q : Bytes}

theorem unescape_remainder (ht : t = [] ∨ t.head? = some 47) (hu : URL.unescape t .path = some u) :
    (u = [] ↔ t = []) ∧ (u = [] ∨ u.head? = some 47) := by
  rcases ht with rfl | ht
  · cases hu
    simp
  · obtain ⟨t, rfl⟩ := List.head?_eq_some_iff.mp ht
    have := URL.head_unescape hu
    obtain ⟨u, rfl⟩ := List.head?_eq_some_iff.mp this
    simp

theorem forward_slug_path (hr : rt.registry.Reachable) (hb : rt.registry.lookup s = some b)
    (hport : 0 ≤ b.port) (hhost : rt.registry.lookup (rt.slugFromHost host) = none)
    (ht : t = [] ∨ t.head? = some 47) (hv : URL.validEncoded t) (hu : URL.unescape t .path = some u)
    (hq : URL.containsCTLByte q = false) :
    rt.forward m host (utf8 ("/" ++ s) ++ t ++ 63 :: q) =
      some ("127.0.0.1:" ++ toString b.port, (if t = [] then [47] else URL.escape u .path) ++
        if q = [] ∨ URL.cleanQueryParams q ≠ [] then 63 :: URL.cleanQueryParams q else []) := by
  have hs := (hr.wellKeyed hb).1
  have hsb := fun x (hx : x ∈ utf8 s) => hs.mem_utf8 hx
  have hpath : ∀ c ∈ 47 :: (utf8 s ++ t), c ≠ 63 ∧ ¬(c < 32 ∨ c = 127) := by
    intro c hc
    rcases List.mem_cons.mp hc with rfl | hc
    · decide
    rcases List.mem_append.mp hc with hc | hc
    exacts [⟨(hsb c hc).2.2.1, (hsb c hc).2.2.2.2⟩, URL.ne_of_validEncoded hv hc]
  have hunesc : URL.unescape (47 :: (utf8 s ++ t)) .path = some (47 :: (utf8 s ++ u)) := by
    have hne : ∀ c ∈ 47 :: utf8 s, c ≠ 37 := by
      intro c hc
      rcases List.mem_cons.mp hc with rfl | hc
      exacts [by decide, (hsb c hc).2.1]
    rw [← List.cons_append, URL.unescape_append_of_forall_ne hne, hu]
    rfl
  have hparse : URL.parseRequestURI ((47 :: (utf8 s ++ t)) ++ 63 :: q) =
      some ⟨47 :: (utf8 s ++ u), if URL.escape (47 :: (utf8 s ++ u)) .path = 47 :: (utf8 s ++ t) then []
        else 47 :: (utf8 s ++ t), q, decide (q = [])⟩ := by
    rw [URL.parseRequestURI_query (show (47 :: (utf8 s ++ t)).head? = some 47 from rfl) hpath hq]
    simp [URL.setPath, hunesc]
  obtain ⟨htu, hrem⟩ := unescape_remainder ht hu
  have hrem' : (if u = [] then [47] else u).head? = some (47 : UInt8) := by
    rcases hrem with rfl | hrem
    · rfl
    · obtain ⟨u, rfl⟩ := List.head?_eq_some_iff.mp hrem
      rfl
  have hlookup := (hr.wellKeyed.lookupBytes_utf8 hs).trans hb
  rw [show utf8 ("/" ++ s) ++ t ++ 63 :: q = (47 :: (utf8 s ++ t)) ++ 63 :: q by rw [utf8_append]; rfl,
    forward_of_proxy hparse (serveHTTP_of_path hhost
      (slugFromPath_cons_append hs.utf8_ne_nil (fun c hc => (hsb c hc).1) hrem) hs.utf8_ne_nil
      hlookup) hport,
    rewriteURL_of_ne_nil (fun h => by simp [h] at hrem'), URL.requestURI_of_rawPath_nil rfl hrem']
  have he : URL.escape [47] .path = [47] := by decide
  by_cases ht0 : t = [] <;> simp [ht0, htu, he, em]

theorem forward_domainFor (hr : rt.registry.Reachable) (hb : rt.registry.lookup s = some b)
    (hport : 0 ≤ b.port) (hcolon : ':' ∉ rt.cfg.username.data) {p : Bytes}
    (hp : p.head? = some 47) (hv : URL.validEncoded p) (hu : URL.unescape p .path ≠ none)
    (hq : URL.containsCTLByte q = false) :
    rt.forward m (rt.cfg.domainFor s) (p ++ 63 :: q) =
      some ("127.0.0.1:" ++ toString b.port,
        p ++ if q = [] ∨ URL.cleanQueryParams q ≠ [] then 63 :: URL.cleanQueryParams q else []) := by
  have hs := (hr.wellKeyed hb).1
  obtain ⟨url, hset⟩ := Option.ne_none_iff_exists'.mp
    (by simpa [URL.setPath] using hu : (⟨[], [], q, decide (q = [])⟩ : URL).setPath p ≠ none)
  have hparse :=
    (URL.parseRequestURI_query hp (fun c hc => URL.ne_of_validEncoded hv hc) hq).trans hset
  have hslug : rt.slugFromHost (rt.cfg.domainFor s) = s :=
    slugFromHost_domainFor hs hcolon (show ':' ∉ ("" : String).data from List.not_mem_nil _) (.inl rfl)
  have hserve : rt.serveHTTP ⟨m, rt.cfg.domainFor s, url⟩ = .proxy b [] :=
    serveHTTP_of_host (by rw [hslug]; exact hs.ne_empty) (by rw [hslug]; exact hb)
  obtain ⟨-, -, hrq, hfq⟩ := URL.setPath_spec hset hp
  have hp0 : p ≠ [] := List.ne_nil_of_mem (List.mem_of_mem_head? hp)
  rw [forward_of_proxy hparse hserve hport, rewriteURL_nil_of_setPath hset hv hp, URL.requestURI,
    URL.escapedPath_rawQuery, URL.escapedPath_setPath hset hv hp]
  simp [hrq, hfq, hp0]

-- A slug's path route forwards the remainder decoded and re-encoded in its default encoding, while
-- its host route forwards the same remainder as received; both forward the query as
-- `cleanQueryParams` leaves it.
theorem forward_path_reencodes_remainder (hr : rt.registry.Reachable)
    (hb : rt.registry.lookup s = some b) (hport : 0 ≤ b.port)
    (hhost : rt.registry.lookup (rt.slugFromHost host) = none) (hcolon : ':' ∉ rt.cfg.username.data)
    (ht : t = [] ∨ t.head? = some 47) (hv : URL.validEncoded t) (hu : URL.unescape t .path = some u)
    (hq : URL.containsCTLByte q = false) :
    rt.forward m host (utf8 ("/" ++ s) ++ t ++ 63 :: q) =
        some ("127.0.0.1:" ++ toString b.port, (if t = [] then [47] else URL.escape u .path) ++
          if q = [] ∨ URL.cleanQueryParams q ≠ [] then 63 :: URL.cleanQueryParams q else []) ∧
      rt.forward m (rt.cfg.domainFor s) ((if t = [] then [47] else t) ++ 63 :: q) =
        some ("127.0.0.1:" ++ toString b.port, (if t = [] then [47] else t) ++
          if q = [] ∨ URL.cleanQueryParams q ≠ [] then 63 :: URL.cleanQueryParams q else []) := by
  refine ⟨forward_slug_path hr hb hport hhost ht hv hu hq, ?_⟩
  rcases ht with rfl | ht
  · exact forward_domainFor hr hb hport hcolon rfl (by decide) (by decide) hq
  · have ht0 : t ≠ [] := by rintro rfl; cases ht
    rw [if_neg ht0]
    exact forward_domainFor hr hb hport hcolon ht hv (by simp [hu]) hq

theorem forward_path_reencodes_remainder_alice :
    aliceRouter.registry.Reachable ∧
      aliceRouter.registry.lookup "proj" = some ⟨30001, "proj", "/home/alice/proj", "proj", "1", 0⟩ ∧
      (0 : Int) ≤ 30001 ∧ aliceRouter.registry.lookup (aliceRouter.slugFromHost "localhost:8080") = none ∧
      ':' ∉ aliceRouter.cfg.username.data ∧
      (utf8 "/file/a%2Fb" = [] ∨ (utf8 "/file/a%2Fb").head? = some 47) ∧
      URL.validEncoded (utf8 "/file/a%2Fb") ∧
      URL.unescape (utf8 "/file/a%2Fb") .path = some (utf8 "/file/a/b") ∧
      URL.containsCTLByte (utf8 "a=1;b=2") = false ∧
      (aliceRouter.forward "GET" "localhost:8080" (utf8 ("/" ++ "proj") ++ utf8 "/file/a%2Fb" ++
            63 :: utf8 "a=1;b=2") =
          some ("127.0.0.1:" ++ toString (30001 : Int),
            (if utf8 "/file/a%2Fb" = [] then [47] else URL.escape (utf8 "/file/a/b") .path) ++
              if utf8 "a=1;b=2" = [] ∨ URL.cleanQueryParams (utf8 "a=1;b=2") ≠ [] then
                63 :: URL.cleanQueryParams (utf8 "a=1;b=2") else []) ∧
        aliceRouter.forward "GET" (aliceRouter.cfg.domainFor "proj")
            ((if utf8 "/file/a%2Fb" = [] then [47] else utf8 "/file/a%2Fb") ++ 63 :: utf8 "a=1;b=2") =
          some ("127.0.0.1:" ++ toString (30001 : Int),
            (if utf8 "/file/a%2Fb" = [] then [47] else utf8 "/file/a%2Fb") ++
              if utf8 "a=1;b=2" = [] ∨ URL.cleanQueryParams (utf8 "a=1;b=2") ≠ [] then
                63 :: URL.cleanQueryParams (utf8 "a=1;b=2") else [])) :=
  have hr := (Registry.reachable_new _).upsert ..
  have hb := by decide
  have hport := by decide
  have hhost := by decide
  have hcolon := by decide
  have ht := by decide
  have hv := by decide
  have hu := by decide
  have hq := by decide
  ⟨hr, hb, hport, hhost, hcolon, ht, hv, hu, hq,
    forward_path_reencodes_remainder hr hb hport hhost hcolon ht hv hu hq⟩

theorem forward_path_unescapes_slash :
    aliceRouter.forward "GET" "localhost:8080" (utf8 "/proj/file/a%2Fb?q=1") =
        some ("127.0.0.1:30001", utf8 "/file/a/b?q=1") ∧
      aliceRouter.forward "GET" (aliceRouter.cfg.domainFor "proj") (utf8 "/file/a%2Fb?q=1") =
        some ("127.0.0.1:30001", utf8 "/file/a%2Fb?q=1") := by
  decide

end Forward

end Router
