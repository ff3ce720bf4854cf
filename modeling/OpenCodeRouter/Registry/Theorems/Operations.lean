import OpenCodeRouter.Registry.Theorems.Coherence

namespace Registry

variable {r : Registry} {port : Int} {s : String} {b : Backend} {now : Time}
  {projectName projectPath version : String}

theorem Indexed.upsert_stores (hi : r.Indexed) (now : Time) (port : Int)
    (projectName projectPath version : String) :
    ∃ s, (s = slugify projectPath ∨ s = slugify projectPath ++ "-" ++ toString port) ∧
      (r.upsert now port projectName projectPath version).1.backends.lookup s =
        some ⟨port, projectName, projectPath, s, version, now⟩ ∧
      (r.upsert now port projectName projectPath version).1.byPort.lookup port = some s := by
  rcases upsert_cases r now port projectName projectPath version with ⟨e, he, -, hu⟩ | ⟨key, hkey, hu⟩ <;>
    rw [hu]
  case inl =>
    have hs : e.slug = slugify projectPath := (hi (lookup_of_lookup_releasePort he).1).1
    exact ⟨_, .inl rfl, by simp [hs], by simp⟩
  case inr =>
    refine ⟨key, ?_, by simp, by simp⟩
    rcases hkey with ⟨-, rfl⟩ | ⟨-, -, -, rfl⟩
    exacts [.inl rfl, .inr rfl]

theorem upsert_found_by_slug_and_port (hr : r.Reachable) (now : Time) (port : Int)
    (projectName projectPath version : String) :
    ∃ s, (s = slugify projectPath ∨ s = slugify projectPath ++ "-" ++ toString port) ∧
      (r.upsert now port projectName projectPath version).1.lookup s =
        some ⟨port, projectName, projectPath, s, version, now⟩ ∧
      (r.upsert now port projectName projectPath version).1.lookupByPort port =
        .ok (some ⟨port, projectName, projectPath, s, version, now⟩) :=
  have ⟨s, hs, hl, hp⟩ := hr.indexed.upsert_stores now port projectName projectPath version
  ⟨s, hs, hl, lookupByPort_of_lookup hp hl⟩

theorem upsert_found_by_slug_and_port_collisionSetup :
    collisionSetup.Reachable ∧
      ∃ s, (s = slugify "/c/foo" ∨ s = slugify "/c/foo" ++ "-" ++ toString (30001 : Int)) ∧
        (collisionSetup.upsert 0 30001 "foo" "/c/foo" "1").1.lookup s =
          some ⟨30001, "foo", "/c/foo", s, "1", 0⟩ ∧
        (collisionSetup.upsert 0 30001 "foo" "/c/foo" "1").1.lookupByPort 30001 =
          .ok (some ⟨30001, "foo", "/c/foo", s, "1", 0⟩) :=
  have hr : collisionSetup.Reachable := ((reachable_new _).upsert ..).upsert ..
  ⟨hr, upsert_found_by_slug_and_port hr 0 30001 "foo" "/c/foo" "1"⟩

def fooTaken : Registry :=
  ((Registry.new 30000000000).upsert 0 50000 "foo" "/b/foo" "1").1

theorem upsert_repeat_after_collision_is_new :
    fooTaken.Reachable ∧ (fooTaken.upsert 0 30001 "foo" "/c/foo" "1").2 = true ∧
      ((fooTaken.upsert 0 30001 "foo" "/c/foo" "1").1.upsert 0 30001 "foo" "/c/foo" "1").2 = true :=
  ⟨(reachable_new _).upsert .., by decide, by decide⟩

theorem append_port_ne (s : String) (port : Int) : s ++ "-" ++ toString port ≠ s := fun h => by
  have hl := congrArg String.length h
  rw [String.length_append, String.length_append, show "-".length = 1 from rfl] at hl
  omega

theorem Indexed.upsert_slug (hi : r.Indexed) :
    (r.upsert now port projectName projectPath version).1.lookup (slugify projectPath) =
        some ⟨port, projectName, projectPath, slugify projectPath, version, now⟩ ∨
      ∃ e, (r.upsert now port projectName projectPath version).1.lookup (slugify projectPath) = some e ∧
        ¬(e.projectPath = projectPath ∨ e.port = port) := by
  rcases upsert_cases r now port projectName projectPath version with ⟨e, he, -, hu⟩ | ⟨key, hkey, hu⟩ <;>
    rw [hu, lookup]
  case inl =>
    have hs : e.slug = slugify projectPath := (hi (lookup_of_lookup_releasePort he).1).1
    exact .inl (by simp [hs])
  case inr =>
    rcases hkey with ⟨-, rfl⟩ | ⟨e, he, hne, rfl⟩
    · exact .inl (by simp)
    · exact .inr ⟨e, by rw [lookup_insertNew, if_neg (append_port_ne _ _).symm, he], hne⟩

theorem Indexed.upsert_of_lookup (hi : r.Indexed) (hb : r.lookup (slugify projectPath) = some b)
    (hp : b.port = port) :
    r.upsert now port projectName projectPath version =
      (r.updateExisting r.backends (slugify projectPath) b now port projectName projectPath version,
        false) := by
  subst hp
  have hb' : r.backends.lookup (slugify projectPath) = some b := hb
  have hrel : r.releasePort b.port (slugify projectPath) = r.backends := by
    simp [releasePort, (hi hb').2]
  simp only [Registry.upsert, hrel, hb', or_true, if_true]

theorem upsert_snd_of_collision {e : Backend} (hb : r.lookup (slugify projectPath) = some e)
    (hne : ¬(e.projectPath = projectPath ∨ e.port = port)) :
    (r.upsert now port projectName projectPath version).2 = true := by
  have : (r.releasePort port (slugify projectPath)).lookup (slugify projectPath) = some e := by
    simpa [lookup] using hb
  simp only [upsert, this, if_neg hne]

theorem upsert_repeat_is_update_iff {r₁ : Registry} (hr : r.Reachable)
    (h₁ : (r.upsert now port projectName projectPath version).1 = r₁) (now' : Time)
    (projectName' version' : String) :
    ((r₁.upsert now' port projectName' projectPath version').2 = false ↔
      r₁.lookup (slugify projectPath) =
        some ⟨port, projectName, projectPath, slugify projectPath, version, now⟩) ∧
    (r₁.lookup (slugify projectPath) =
        some ⟨port, projectName, projectPath, slugify projectPath, version, now⟩ →
      (∀ s, (r₁.upsert now' port projectName' projectPath version').1.lookup s =
        if s = slugify projectPath then
          some ⟨port, projectName', projectPath, slugify projectPath, version', now'⟩
        else r₁.lookup s) ∧
      ∀ q, (r₁.upsert now' port projectName' projectPath version').1.byPort.lookup q =
        r₁.byPort.lookup q) := by
  have hi₁ : r₁.Indexed := h₁ ▸ (hr.upsert now port projectName projectPath version).indexed
  refine ⟨⟨fun hfalse => ?_, fun hb => by rw [hi₁.upsert_of_lookup hb rfl]⟩, fun hb => ?_⟩
  · rcases h₁ ▸ hr.indexed.upsert_slug with hb | ⟨e, hb, hne⟩
    · exact hb
    · rw [upsert_snd_of_collision hb hne] at hfalse
      cases hfalse
  · rw [hi₁.upsert_of_lookup hb rfl]
    refine ⟨fun s => by simp [lookup], fun q => ?_⟩
    by_cases hq : q = port
    · subst hq; simpa using (hi₁ hb).2.symm
    · simp [hq]

theorem upsert_repeat_is_update_iff_fooTaken :
    fooTaken.Reachable ∧
      (fooTaken.upsert 0 30001 "foo" "/c/foo" "1").1 = (fooTaken.upsert 0 30001 "foo" "/c/foo" "1").1 ∧
      ((((fooTaken.upsert 0 30001 "foo" "/c/foo" "1").1.upsert 10 30001 "foo" "/c/foo" "2").2 = false ↔
        (fooTaken.upsert 0 30001 "foo" "/c/foo" "1").1.lookup (slugify "/c/foo") =
          some ⟨30001, "foo", "/c/foo", slugify "/c/foo", "1", 0⟩) ∧
      ((fooTaken.upsert 0 30001 "foo" "/c/foo" "1").1.lookup (slugify "/c/foo") =
          some ⟨30001, "foo", "/c/foo", slugify "/c/foo", "1", 0⟩ →
        (∀ s, ((fooTaken.upsert 0 30001 "foo" "/c/foo" "1").1.upsert 10 30001 "foo" "/c/foo" "2").1.lookup s =
          if s = slugify "/c/foo" then some ⟨30001, "foo", "/c/foo", slugify "/c/foo", "2", 10⟩
          else (fooTaken.upsert 0 30001 "foo" "/c/foo" "1").1.lookup s) ∧
        ∀ q, ((fooTaken.upsert 0 30001 "foo" "/c/foo" "1").1.upsert 10 30001 "foo" "/c/foo" "2").1.byPort.lookup q =
          (fooTaken.upsert 0 30001 "foo" "/c/foo" "1").1.byPort.lookup q)) :=
  have hr : fooTaken.Reachable := (reachable_new _).upsert ..
  ⟨hr, rfl, upsert_repeat_is_update_iff hr rfl 10 "foo" "2"⟩

structure PrunesStale (r : Registry) (clock : Entry → Time) (result : Registry × List String) :
    Prop where
  nodup : result.2.Nodup
  mem_removed : ∀ s, s ∈ result.2 ↔
    ∃ b, r.lookup s = some b ∧ r.staleAfter < Time.sub (clock ⟨s, b⟩) b.lastSeen
  lookup : ∀ s, result.1.lookup s =
    (r.lookup s).filter fun b => Time.sub (clock ⟨s, b⟩) b.lastSeen ≤ r.staleAfter
  byPort_stale : ∀ p, (∃ s b, r.lookup s = some b ∧ r.staleAfter < Time.sub (clock ⟨s, b⟩) b.lastSeen ∧
    b.port = p) → result.1.byPort.lookup p = none
  byPort_fresh : ∀ p, (∀ s b, r.lookup s = some b → b.port = p →
    Time.sub (clock ⟨s, b⟩) b.lastSeen ≤ r.staleAfter) → result.1.byPort.lookup p = r.byPort.lookup p
  byPort_kept : ∀ p s, r.byPort.lookup p = some s → (∃ b, result.1.lookup s = some b) →
    result.1.byPort.lookup p = some s

theorem prune_removes_stale_exactly (hi : r.Indexed) (clock : Entry → Time) {entries : List Entry}
    (h : entries.Perm r.backends.entries) : r.PrunesStale clock (r.prune clock entries) := by
  obtain ⟨hl, hrem⟩ := prune_removes_exactly_stale clock h
  have hfresh : ∀ p, (∀ s b, r.lookup s = some b → b.port = p →
      Time.sub (clock ⟨s, b⟩) b.lastSeen ≤ r.staleAfter) →
        (r.prune clock entries).1.byPort.lookup p = r.byPort.lookup p :=
    fun p hf => by
      rw [prune, foldl_pruneEntry_byPort, if_neg]
      rintro ⟨e, he, hs, hp⟩
      exact not_le.mpr hs (hf e.1 e.2 ((mem_entries_iff h).mp he) hp)
  refine ⟨?_, fun s => ?_, hl, fun p ⟨s, b, hb, hs, hp⟩ => ?_, hfresh, fun p s hp ⟨b, hb⟩ => ?_⟩
  · rw [hrem]
    exact ((List.filter_sublist entries).map _).nodup ((h.map _).nodup_iff.mpr r.backends.keys_nodup)
  · simp [hrem, List.mem_filter, mem_entries_iff h, lookup]
  · rw [prune, foldl_pruneEntry_byPort, if_pos ⟨⟨s, b⟩, (mem_entries_iff h).mpr hb, hs, hp⟩]
  · -- A backend on port `p` is indexed under `s`, so it is the one under `s`, which survives.
    rw [hfresh p, hp]
    intro s' b' hb' hp'
    obtain ⟨hb, hfb⟩ := Option.mem_filter_iff.mp (hl s ▸ hb)
    obtain rfl : s' = s := Option.some.inj ((hi hb').2.symm.trans (hp' ▸ hp))
    obtain rfl := Option.some.inj (hb'.symm.trans hb)
    exact of_decide_eq_true hfb

theorem prune_removes_stale_exactly_twoProjects :
    twoProjects.Indexed ∧ twoProjects.backends.entries.Perm twoProjects.backends.entries ∧
      twoProjects.PrunesStale (fun _ => 50000000000)
        (twoProjects.prune (fun _ => 50000000000) twoProjects.backends.entries) :=
  have hi : twoProjects.Indexed := (((reachable_new _).upsert ..).upsert ..).indexed
  ⟨hi, .refl _, prune_removes_stale_exactly hi _ (.refl _)⟩

end Registry
