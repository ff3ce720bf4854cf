import OpenCodeRouter.Proxy.Theorems.Routing

namespace URL

variable {u base : URL} {p target : Bytes}

theorem escapedPath_spec (hp : u.path.head? = some 47)
    (hr : u.rawPath = [] ∨ u.rawPath.head? = some 47) :
    u.escapedPath.head? = some 47 ∧ (∀ c ∈ u.escapedPath, c ≠ 63 ∧ ¬(c < 32 ∨ c = 127)) ∧
      unescape u.escapedPath .path = some u.path := by
  obtain ⟨t, ht⟩ := List.head?_eq_some_iff.mp hp
  unfold escapedPath
  split
  · next h => exact ⟨hr.resolve_left h.1, fun c hc => ne_of_validEncoded h.2.1 hc, h.2.2⟩
  split
  · next h => simp [h] at ht
  · refine ⟨?_, fun c hc => ne_of_mem_escape hc, unescape_escape _ _⟩
    rw [ht, escape_cons_of_shouldEscape_eq_false (by decide)]
    rfl

theorem parseRequestURI_path (hp : p.head? = some 47)
    (hpath : ∀ c ∈ p, c ≠ 63 ∧ ¬(c < 32 ∨ c = 127)) :
    parseRequestURI p = (⟨[], [], [], false⟩ : URL).setPath p := by
  have hctl : containsCTLByte p = false := containsCTLByte_eq_false_iff.mpr fun c hc => (hpath c hc).2
  have hpos : ∀ c ∈ p, decide (c ≠ 63) = true := fun c hc => by simpa using (hpath c hc).1
  have hlast : ¬(p.getLast? = some 63 ∧ p.count 63 = 1) :=
    fun h => (hpath 63 (List.mem_of_getLast?_eq_some h.1)).1 rfl
  obtain ⟨p', rfl⟩ := List.head?_eq_some_iff.mp hp
  unfold parseRequestURI
  rw [hctl, if_neg (by simp), if_neg (by simp), if_neg (by simp), if_neg hlast,
    List.takeWhile_eq_self_iff.mpr hpos, List.dropWhile_eq_nil_iff.mpr hpos]
  rfl

theorem parseRequestURI_requestURI (hp : u.path.head? = some 47)
    (hr : u.rawPath = [] ∨ u.rawPath.head? = some 47) (hq : containsCTLByte u.rawQuery = false) :
    ∃ u', parseRequestURI u.requestURI = some u' ∧ u'.path = u.path ∧ u'.rawQuery = u.rawQuery ∧
      u'.forceQuery = decide (u.forceQuery ∧ u.rawQuery = []) := by
  have ⟨he, hbytes, hun⟩ := escapedPath_spec hp hr
  unfold requestURI
  rw [if_neg (List.ne_nil_of_mem (List.mem_of_mem_head? he))]
  split
  · next hf =>
    rw [parseRequestURI_query he hbytes hq]
    simp only [setPath, hun, Option.map_some']
    refine ⟨_, rfl, rfl, rfl, ?_⟩
    by_cases h0 : u.rawQuery = [] <;> simp [h0] at hf ⊢
    exact hf
  · next hf =>
    push_neg at hf
    rw [List.append_nil, parseRequestURI_path he hbytes]
    simp only [setPath, hun, Option.map_some']
    exact ⟨_, rfl, rfl, hf.2.symm, by simp [hf.1]⟩

theorem parseRequestURI_spec (ht : target.head? = some 47) (h : parseRequestURI target = some u) :
    u.path.head? = some 47 ∧ (u.rawPath = [] ∨ u.rawPath.head? = some 47) ∧
      containsCTLByte u.rawQuery = false ∧ (u.forceQuery = true → u.rawQuery = []) := by
  obtain ⟨t, rfl⟩ := List.head?_eq_some_iff.mp ht
  unfold parseRequestURI at h
  split at h
  · cases h
  next hctl =>
  rw [if_neg (by simp), if_neg (by simp)] at h
  by_cases hq : (47 :: t).getLast? = some 63 ∧ (47 :: t).count 63 = 1
  · rw [if_pos hq] at h
    have ht0 : t ≠ [] := by rintro rfl; simp at hq
    obtain ⟨hp, hr, hrq, -⟩ := setPath_spec h (by simp [List.dropLast_cons_of_ne_nil ht0])
    exact ⟨hp, hr, by simp [hrq, containsCTLByte], fun _ => hrq⟩
  · rw [if_neg hq] at h
    obtain ⟨hp, hr, hrq, hf⟩ := setPath_spec h (by simp)
    refine ⟨hp, hr, ?_, by simp [hf]⟩
    rw [hrq]
    rw [Bool.not_eq_true, containsCTLByte_eq_false_iff] at hctl
    rw [containsCTLByte_eq_false_iff]
    exact fun c hc => hctl c ((List.drop_suffix _ _).trans (List.dropWhile_suffix _) |>.subset hc)

end URL

namespace Router

variable {rt : Router} {req : Request} {b : Backend} {o : Bytes}

theorem slugFromPath_snd (path : Bytes) :
    (slugFromPath path).2 = [] ∨ (slugFromPath path).2.head? = some 47 := by
  unfold slugFromPath
  dsimp only
  generalize (if path.head? = some 47 then path.tail else path) = trimmed
  split
  · exact .inl rfl
  · split <;> simp

theorem serveHTTP_proxy_override (h : rt.serveHTTP req = .proxy b o) : o = [] ∨ o.head? = some 47 := by
  have hs := slugFromPath_snd req.url.path
  unfold serveHTTP at h
  generalize slugFromPath req.url.path = sr at h hs
  obtain ⟨slug, rem⟩ := sr
  dsimp only at h
  split at h
  · cases h; exact .inl rfl
  · split at h
    · cases h; exact hs
    · split_ifs at h

theorem forward_preserves_decoded_request {m host : String} {target : Bytes} {url : URL}
    (ht : target.head? = some 47) (hparse : URL.parseRequestURI target = some url)
    (hs : rt.serveHTTP ⟨m, host, url⟩ = .proxy b o) (hport : 0 ≤ b.port) :
    ∃ out url', rt.forward m host target = some ("127.0.0.1:" ++ toString b.port, out) ∧
      URL.parseRequestURI out = some url' ∧ url'.path = (if o = [] then url.path else o) ∧
      url'.rawQuery = URL.cleanQueryParams url.rawQuery ∧ url'.forceQuery = url.forceQuery := by
  have ⟨hp, hr, hq, hf⟩ := URL.parseRequestURI_spec ht hparse
  have hq' := URL.containsCTLByte_cleanQueryParams hq
  have hforce : decide (url.forceQuery ∧ URL.cleanQueryParams url.rawQuery = []) = url.forceQuery := by
    cases h : url.forceQuery <;> simp [hf, h]
  suffices ∃ url', URL.parseRequestURI (rewriteURL url o).requestURI = some url' ∧
      url'.path = (if o = [] then url.path else o) ∧ url'.rawQuery = URL.cleanQueryParams url.rawQuery ∧
      url'.forceQuery = url.forceQuery from
    let ⟨url', h⟩ := this
    ⟨_, url', forward_of_proxy hparse hs hport, h⟩
  rcases serveHTTP_proxy_override hs with rfl | ho
  · have hj := URL.joinURLPath_empty (b := { url with rawQuery := URL.cleanQueryParams url.rawQuery }) hp
      fun _ => (URL.escapedPath_spec hp hr).1
    have hr' : (if url.rawPath = [] then [] else url.escapedPath) = [] ∨
        (if url.rawPath = [] then [] else url.escapedPath).head? = some 47 := by
      split
      exacts [.inl rfl, .inr (URL.escapedPath_spec hp hr).1]
    obtain ⟨u', hu', hpath, hquery, hforce'⟩ := URL.parseRequestURI_requestURI (u := { url with
      rawQuery := URL.cleanQueryParams url.rawQuery, path := url.path,
      rawPath := if url.rawPath = [] then [] else url.escapedPath }) hp hr' hq'
    refine ⟨u', ?_, by simpa using hpath, hquery, hforce'.trans hforce⟩
    simpa [rewriteURL, hj] using hu'
  · have ho0 : o ≠ [] := List.ne_nil_of_mem (List.mem_of_mem_head? ho)
    obtain ⟨u', hu', hpath, hquery, hforce'⟩ := URL.parseRequestURI_requestURI
      (u := { url with rawQuery := URL.cleanQueryParams url.rawQuery, path := o, rawPath := [] }) ho
      (.inl rfl) hq'
    rw [rewriteURL_of_ne_nil ho0, if_neg ho0]
    exact ⟨u', hu', hpath, hquery, hforce'.trans hforce⟩

def slashURL : URL :=
  ⟨utf8 "/proj/a/b", utf8 "/proj/a%2Fb", utf8 "a=1;b=2", false⟩

theorem forward_preserves_decoded_request_alice :
    (utf8 "/proj/a%2Fb?a=1;b=2").head? = some 47 ∧
      URL.parseRequestURI (utf8 "/proj/a%2Fb?a=1;b=2") = some slashURL ∧
      aliceRouter.serveHTTP ⟨"GET", "localhost:8080", slashURL⟩ =
        .proxy ⟨30001, "proj", "/home/alice/proj", "proj", "1", 0⟩ (utf8 "/a/b") ∧
      0 ≤ (⟨30001, "proj", "/home/alice/proj", "proj", "1", 0⟩ : Backend).port ∧
      ∃ out url', aliceRouter.forward "GET" "localhost:8080" (utf8 "/proj/a%2Fb?a=1;b=2") =
          some ("127.0.0.1:" ++ toString (30001 : Int), out) ∧
        URL.parseRequestURI out = some url' ∧
        url'.path = (if utf8 "/a/b" = [] then slashURL.path else utf8 "/a/b") ∧
        url'.rawQuery = URL.cleanQueryParams slashURL.rawQuery ∧ url'.forceQuery = slashURL.forceQuery :=
  have ht := by decide
  have hp := by decide
  have hs := by decide
  have hport := by decide
  ⟨ht, hp, hs, hport, forward_preserves_decoded_request ht hp hs hport⟩

end Router
