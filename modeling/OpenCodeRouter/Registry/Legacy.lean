import OpenCodeRouter.Registry.Theorems.CoherentRuns

namespace Registry

-- `Upsert(port, _, projectPath, _)` finds under `Slugify(projectPath)`, once `port` is released, the
-- backend of another project on another port.
def Collides (r : Registry) (port : Int) (projectPath : String) : Prop :=
  ∃ e, (r.releasePort port (slugify projectPath)).lookup (slugify projectPath) = some e ∧
    ¬(e.projectPath = projectPath ∨ e.port = port)

namespace Legacy

def runeString (port : Int) : String :=
  let r := Int.bmod port (2 ^ 32)
  if 0 ≤ r ∧ (r < 0xD800 ∨ 0xDFFF < r ∧ r < 0x110000) then ⟨[Char.ofNat r.toNat]⟩
  else ⟨[Char.ofNat 0xFFFD]⟩

def trimLeftZeros (s : String) : String :=
  ⟨s.data.dropWhile (· = '0')⟩

-- `Upsert` of the earlier `registry.go` updates whatever backend it finds under the slug, and looks
-- for a collision only once that branch has returned, so the suffixed slug is never taken.
def upsert (r : Registry) (now : Time) (port : Int) (projectName projectPath version : String) :
    Registry × Bool :=
  let slug := slugify projectPath
  let backends := r.releasePort port slug
  match backends.lookup slug with
  | some existing =>
    (r.updateExisting backends slug existing now port projectName projectPath version, false)
  | none =>
    let slug :=
      if (backends.lookup slug).isSome then slug ++ "-" ++ trimLeftZeros (runeString port) else slug
    (r.insertNew backends slug now port projectName projectPath version, true)

inductive Step : Registry → Registry → Prop
  | upsert (r : Registry) (now : Time) (port : Int) (projectName projectPath version : String) :
      Step r (upsert r now port projectName projectPath version).1
  | prune (r : Registry) (clock : Entry → Time) (entries : List Entry)
      (h : entries.Perm r.backends.entries) :
      Step r (r.prune clock entries).1

def Reachable (r : Registry) : Prop :=
  ∃ d, Relation.ReflTransGen Step (Registry.new d) r

variable {r : Registry} {port : Int} {now : Time} {projectName projectPath version : String}

theorem upsert_cases (r : Registry) (now : Time) (port : Int) (projectName projectPath version : String) :
    (∃ e, (r.releasePort port (slugify projectPath)).lookup (slugify projectPath) = some e ∧
      upsert r now port projectName projectPath version =
        (r.updateExisting (r.releasePort port (slugify projectPath)) (slugify projectPath) e now port
          projectName projectPath version, false)) ∨
    (r.releasePort port (slugify projectPath)).lookup (slugify projectPath) = none ∧
      upsert r now port projectName projectPath version =
        (r.insertNew (r.releasePort port (slugify projectPath)) (slugify projectPath) now port
          projectName projectPath version, true) := by
  dsimp only [upsert]
  split
  · next e he => exact .inl ⟨e, he, rfl⟩
  · next he => exact .inr ⟨he, by simp [he]⟩

theorem upsert_eq_iff :
    upsert r now port projectName projectPath version = r.upsert now port projectName projectPath version ↔
      ¬r.Collides port projectPath := by
  rcases upsert_cases r now port projectName projectPath version with ⟨e, he, hu⟩ | ⟨he, hu⟩ <;>
    rw [hu, Registry.upsert] <;> simp only [he]
  · by_cases hc : e.projectPath = projectPath ∨ e.port = port
    · simp only [if_pos hc, true_iff]
      rintro ⟨e', he', hne⟩
      exact hne (Option.some.inj (he.symm.trans he') ▸ hc)
    · simp only [if_neg hc, Prod.mk.injEq, Bool.false_eq_true, and_false, false_iff, not_not]
      exact ⟨e, he, hc⟩
  · simp only [true_iff]
    rintro ⟨e, he', -⟩
    rw [he] at he'; cases he'

def Keyed (r : Registry) : Prop :=
  ∀ ⦃s b⦄, r.backends.lookup s = some b → s = slugify b.projectPath

theorem Keyed.upsert (hk : Keyed r) : Keyed (upsert r now port projectName projectPath version).1 := by
  rcases upsert_cases r now port projectName projectPath version with ⟨e, -, hu⟩ | ⟨-, hu⟩ <;>
    rw [hu] <;> intro s b hb
  · simp only [lookup_updateExisting] at hb
    split at hb
    · cases hb; assumption
    · exact hk (lookup_of_lookup_releasePort hb).1
  · simp only [lookup_insertNew] at hb
    split at hb
    · cases hb; assumption
    · exact hk (lookup_of_lookup_releasePort hb).1

theorem Keyed.drop {s : String} {b : Backend} (hk : Keyed r) : Keyed (r.drop s b) := fun _ _ hb => by
  simp only [lookup_drop] at hb
  split at hb
  · cases hb
  · exact hk hb

theorem coherent_upsert (hc : r.Coherent) : (upsert r now port projectName projectPath version).1.Coherent := by
  rcases upsert_cases r now port projectName projectPath version with ⟨e, he, hu⟩ | ⟨he, hu⟩ <;> rw [hu]
  · exact ⟨hc.indexed.updateExisting he, hc.backed.updateExisting he⟩
  · -- With nothing under the slug the two versions agree, and the current one cannot overwrite.
    have hnc : ¬r.Collides port projectPath := fun ⟨_, he', _⟩ => by rw [he] at he'; cases he'
    rw [← hu, upsert_eq_iff.mpr hnc]
    exact hc.upsert fun ⟨_, he', _⟩ => by rw [he] at he'; cases he'

theorem legacy_runs_keep_index_coherent (hr : Reachable r) :
    r.Coherent ∧ (∀ ⦃s b⦄, r.lookup s = some b → s = slugify b.projectPath) ∧
      (∀ p, ∃ o, r.lookupByPort p = .ok o) ∧
      ∀ now port projectName projectPath version,
        upsert r now port projectName projectPath version =
            r.upsert now port projectName projectPath version ↔
          ¬r.Collides port projectPath := by
  obtain ⟨d, h⟩ := hr
  have : r.Coherent ∧ Keyed r := by
    induction h with
    | refl =>
      exact ⟨.new d, fun _ _ h => by simp [Registry.new, AList.lookup_empty] at h⟩
    | tail _ hs ih =>
      cases hs with
      | upsert => exact ⟨coherent_upsert ih.1, ih.2.upsert⟩
      | prune _ _ h =>
        exact ⟨ih.1.prune h, prune_induction Keyed (fun _ _ _ hk _ => hk.drop) ih.2 h⟩
  exact ⟨this.1, fun _ _ h => this.2 h, fun p => (this.1.lookupByPort p).1,
    fun _ _ _ _ _ => upsert_eq_iff⟩

def replacedFoo : Registry :=
  (upsert (upsert (Registry.new 30000000000) 0 30001 "foo" "/a/foo" "1").1 0 30002 "foo" "/b/foo" "1").1

theorem legacy_runs_keep_index_coherent_replacedFoo :
    Reachable replacedFoo ∧ replacedFoo.lookup "foo" = some ⟨30002, "foo", "/b/foo", "foo", "1", 0⟩ ∧
      replacedFoo.slugs = ["foo"] ∧
      (replacedFoo.Coherent ∧ (∀ ⦃s b⦄, replacedFoo.lookup s = some b → s = slugify b.projectPath) ∧
        (∀ p, ∃ o, replacedFoo.lookupByPort p = .ok o) ∧
        ∀ now port projectName projectPath version,
          upsert replacedFoo now port projectName projectPath version =
              replacedFoo.upsert now port projectName projectPath version ↔
            ¬replacedFoo.Collides port projectPath) :=
  have hr : Reachable replacedFoo := ⟨_, (Relation.ReflTransGen.single (.upsert _ ..)).tail (.upsert _ ..)⟩
  ⟨hr, by decide, by decide, legacy_runs_keep_index_coherent hr⟩

end Legacy

end Registry
