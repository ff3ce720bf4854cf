import OpenCodeRouter.Registry.Theorems.Prune

namespace Registry

variable {r : Registry} {port : Int} {s : String} {b : Backend} {now : Time} {clock : Entry → Time}
  {projectName projectPath version : String}

def Indexed (r : Registry) : Prop :=
  ∀ ⦃s b⦄, r.backends.lookup s = some b → b.slug = s ∧ r.byPort.lookup b.port = some s

def Backed (r : Registry) : Prop :=
  ∀ ⦃p s⦄, r.byPort.lookup p = some s → ∃ b, r.backends.lookup s = some b ∧ b.port = p

structure Coherent (r : Registry) : Prop where
  indexed : r.Indexed
  backed : r.Backed

namespace Indexed

theorem new (d : Duration) : (Registry.new d).Indexed :=
  fun _ _ h => by simp [Registry.new, AList.lookup_empty] at h

theorem drop (hi : r.Indexed) (h : r.backends.lookup s = some b) : (r.drop s b).Indexed := by
  intro s' b' hb
  simp only [lookup_drop] at hb
  split at hb
  · cases hb
  · next hs =>
    have ⟨hbs, hbp⟩ := hi hb
    have hp : b'.port ≠ b.port := fun he => hs (Option.some.inj ((he ▸ hbp).symm.trans (hi h).2))
    simp [hbs, hp, hbp]

theorem updateExisting {slug : String} {e : Backend} (hi : r.Indexed)
    (he : (r.releasePort port slug).lookup slug = some e) :
    (r.updateExisting (r.releasePort port slug) slug e now port projectName projectPath version).Indexed := by
  intro s' b' hb
  have ⟨hes, hep⟩ := hi (lookup_of_lookup_releasePort he).1
  simp only [lookup_updateExisting] at hb
  split at hb
  · cases hb; simp_all
  · next hs =>
    have ⟨hb', hport⟩ := lookup_of_lookup_releasePort hb
    have ⟨hbs, hbp⟩ := hi hb'
    have h₁ : b'.port ≠ port := fun h => hs (hport (h ▸ hbp))
    have h₂ : b'.port ≠ e.port := fun h => hs (Option.some.inj ((h ▸ hbp).symm.trans hep))
    simp [h₁, h₂, hbp, hbs]

theorem upsert (hi : r.Indexed) : (r.upsert now port projectName projectPath version).1.Indexed := by
  rcases upsert_cases r now port projectName projectPath version with ⟨e, he, -, hu⟩ | ⟨key, hkey, hu⟩ <;>
    rw [hu]
  case inl => exact hi.updateExisting he
  case inr =>
    intro s' b' hb
    simp only [lookup_insertNew] at hb
    split at hb
    · cases hb; simp_all
    · have ⟨hb', hport⟩ := lookup_of_lookup_releasePort hb
      have ⟨hbs, hbp⟩ := hi hb'
      refine ⟨hbs, ?_⟩
      rw [byPort_lookup_insertNew, if_neg]
      · exact hbp
      · intro h
        obtain rfl := hport (h ▸ hbp)
        rcases hkey with ⟨hnone, -⟩ | ⟨e, he, hne, -⟩
        · simp_all
        · exact hne (.inr ((Option.some.inj (he.symm.trans hb)) ▸ h))

theorem prune (hi : r.Indexed) {entries : List Entry} (h : entries.Perm r.backends.entries) :
    (r.prune clock entries).1.Indexed :=
  prune_induction Indexed (fun _ _ _ => Indexed.drop) hi h

theorem step {r r' : Registry} (hs : Step r r') (hi : r.Indexed) : r'.Indexed := by
  cases hs with
  | upsert => exact hi.upsert
  | prune _ _ h => exact hi.prune h

end Indexed

theorem Reachable.indexed (hr : r.Reachable) : r.Indexed :=
  Reachable.induction Indexed.new (fun _ _ => Indexed.step) hr

theorem Indexed.lookupByPath (hi : r.Indexed) {entries : List Entry}
    (h : entries.Perm r.backends.entries) {path : String} (hb : r.lookupByPath entries path = some b) :
    r.lookup b.slug = some b := by
  unfold Registry.lookupByPath at hb
  split at hb
  · next e he =>
    cases hb
    have hl := AList.mem_lookup_iff.mpr (h.subset (List.mem_of_find?_eq_some he))
    rw [← (hi hl).1] at hl
    exact hl
  · rw [← (hi hb).1] at hb
    exact hb

theorem Indexed.lookup_of_mem_all (hi : r.Indexed) {entries : List Entry}
    (h : entries.Perm r.backends.entries) (hb : b ∈ Registry.all entries) :
    r.lookup b.slug = some b := by
  obtain ⟨e, he, rfl⟩ := List.mem_map.mp hb
  have hl := AList.mem_lookup_iff.mpr (h.subset he)
  rw [← (hi hl).1] at hl
  exact hl

theorem backed_iff :
    r.Backed ↔ ∀ e ∈ r.byPort.entries, (r.backends.lookup e.2).map (·.port) = some e.1 := by
  constructor
  · intro h e he
    obtain ⟨b, hb, hp⟩ := h (AList.mem_lookup_iff.mpr he)
    simp [hb, hp]
  · intro h p s hs
    simpa using h ⟨p, s⟩ (AList.mem_lookup_iff.mp hs)

instance : DecidablePred Backed :=
  fun _ => decidable_of_iff _ backed_iff.symm

def collisionSetup : Registry :=
  (((Registry.new 30000000000).upsert 0 40000 "foo-30001" "/a/foo-30001" "1").1.upsert
    0 50000 "foo" "/b/foo" "1").1

def collided : Registry :=
  (collisionSetup.upsert 0 30001 "foo" "/c/foo" "1").1

theorem upsert_collision_leaves_dangling_port :
    (collided.upsert 0 30001 "bar" "/d/bar" "1").1.Reachable ∧ ¬collided.Backed ∧
      (collided.upsert 0 30001 "bar" "/d/bar" "1").1.lookupByPort 40000 = .error nilDereference :=
  ⟨(((((reachable_new _).upsert ..).upsert ..).upsert ..).upsert ..), by decide, rfl⟩

theorem upsert_collision_overwrites_backend :
    collisionSetup.Coherent ∧
      collisionSetup.lookup "foo-30001" = some ⟨40000, "foo-30001", "/a/foo-30001", "foo-30001", "1", 0⟩ ∧
      (collisionSetup.upsert 0 30001 "foo" "/c/foo" "1").1.lookup "foo-30001" ≠
        some ⟨40000, "foo-30001", "/a/foo-30001", "foo-30001", "1", 0⟩ :=
  ⟨⟨((reachable_new _).upsert ..).upsert .. |>.indexed, by decide⟩, rfl, by decide⟩

theorem reachable_backend_indexed (hr : r.Reachable) (h : r.backends.lookup s = some b) :
    b.slug = s ∧ r.byPort.lookup b.port = some s :=
  hr.indexed h

theorem reachable_backend_indexed_collided :
    collided.Reachable ∧ collided.backends.lookup "foo-30001" = some ⟨30001, "foo", "/c/foo", "foo-30001", "1", 0⟩ ∧
      ((⟨30001, "foo", "/c/foo", "foo-30001", "1", 0⟩ : Backend).slug = "foo-30001" ∧
        collided.byPort.lookup 30001 = some "foo-30001") :=
  have hr := ((reachable_new _).upsert ..).upsert .. |>.upsert ..
  have hb := by decide
  ⟨hr, hb, reachable_backend_indexed hr hb⟩

-- The keys `Upsert` writes: the slug of the backend's path, with its port appended on a collision.
def KeyOf (s : String) (b : Backend) : Prop :=
  IsSlug s ∧ (s = slugify b.projectPath ∨ s = slugify b.projectPath ++ "-" ++ toString b.port)

def WellKeyed (r : Registry) : Prop :=
  ∀ ⦃s b⦄, r.backends.lookup s = some b → KeyOf s b

namespace WellKeyed

theorem new (d : Duration) : (Registry.new d).WellKeyed :=
  fun _ _ h => by simp [Registry.new, AList.lookup_empty] at h

theorem drop (hw : r.WellKeyed) : (r.drop s b).WellKeyed := fun _ _ hb => by
  simp only [lookup_drop] at hb
  split at hb
  · cases hb
  · exact hw hb

theorem upsert (hw : r.WellKeyed) :
    (r.upsert now port projectName projectPath version).1.WellKeyed := by
  have hslug := isSlug_slugify projectPath
  rcases upsert_cases r now port projectName projectPath version with ⟨e, -, -, hu⟩ | ⟨key, hkey, hu⟩ <;>
    rw [hu] <;> intro s' b' hb
  case inl =>
    simp only [lookup_updateExisting] at hb
    split at hb
    · cases hb; subst_vars; exact ⟨hslug, .inl rfl⟩
    · exact hw (lookup_of_lookup_releasePort hb).1
  case inr =>
    simp only [lookup_insertNew] at hb
    split at hb
    · cases hb; subst_vars
      rcases hkey with ⟨-, rfl⟩ | ⟨-, -, -, rfl⟩
      exacts [⟨hslug, .inl rfl⟩, ⟨hslug.append_port _, .inr rfl⟩]
    · exact hw (lookup_of_lookup_releasePort hb).1

theorem step {r r' : Registry} (hs : Step r r') (hw : r.WellKeyed) : r'.WellKeyed := by
  cases hs with
  | upsert => exact hw.upsert
  | prune _ _ h => exact prune_induction WellKeyed (fun _ _ _ hw _ => hw.drop) hw h

end WellKeyed

theorem Reachable.wellKeyed (hr : r.Reachable) : r.WellKeyed :=
  Reachable.induction WellKeyed.new (fun _ _ => WellKeyed.step) hr

theorem slug_shape_of_reachable (hr : r.Reachable) (h : r.backends.lookup s = some b) :
    IsSlug s ∧ (s = slugify b.projectPath ∨ s = slugify b.projectPath ++ "-" ++ toString b.port) :=
  hr.wellKeyed h

def capitalFoo : Registry :=
  ((Registry.new 30000000000).upsert 0 30001 "Foo" "/c/Foo" "1").1

theorem slug_shape_of_reachable_capitalFoo :
    capitalFoo.Reachable ∧ capitalFoo.backends.lookup "foo" = some ⟨30001, "Foo", "/c/Foo", "foo", "1", 0⟩ ∧
      (IsSlug "foo" ∧ ("foo" = slugify "/c/Foo" ∨ "foo" = slugify "/c/Foo" ++ "-" ++ toString 30001)) :=
  have hr := (reachable_new _).upsert ..
  have hb := by decide
  -- The port is an `Int`, the literal of the statement a `Nat`: both print as `30001`.
  ⟨hr, hb, (slug_shape_of_reachable hr hb).imp_right (.imp_right fun h => h.trans (by decide))⟩

def movedCollision : Registry :=
  ((((Registry.new 30000000000).upsert 0 1 "foo" "/a/foo" "1").1.upsert
    0 2 "foo" "/b/foo" "1").1.upsert 0 3 "foo" "/b/foo" "1").1

theorem upsert_moved_collision_duplicates_path :
    movedCollision.Reachable ∧
      (movedCollision.lookup "foo-2").map (·.projectPath) = some "/b/foo" ∧
      (movedCollision.lookup "foo-3").map (·.projectPath) = some "/b/foo" ∧
      movedCollision.backends.entries.reverse.Perm movedCollision.backends.entries ∧
      movedCollision.lookupByPath movedCollision.backends.entries "/b/foo" ≠
        movedCollision.lookupByPath movedCollision.backends.entries.reverse "/b/foo" :=
  ⟨(((reachable_new _).upsert ..).upsert ..).upsert .., rfl, rfl, List.reverse_perm _, by decide⟩

end Registry
