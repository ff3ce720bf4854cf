import OpenCodeRouter.Registry.Theorems.Operations

namespace Registry

variable {r : Registry} {port q : Int} {s s' : String} {b e : Backend} {now : Time}
  {clock : Entry → Time} {projectName projectPath version : String}

def Overwrites (r : Registry) (port : Int) (projectPath : String) : Prop :=
  ∃ e, (r.releasePort port (slugify projectPath)).lookup (slugify projectPath) = some e ∧
    ¬(e.projectPath = projectPath ∨ e.port = port) ∧
    (r.releasePort port (slugify projectPath)).lookup (slugify projectPath ++ "-" ++ toString port) ≠ none

instance (r : Registry) (port : Int) (projectPath : String) : Decidable (r.Overwrites port projectPath) :=
  match h : (r.releasePort port (slugify projectPath)).lookup (slugify projectPath) with
  | none => isFalse fun ⟨_, he, _⟩ => by rw [h] at he; cases he
  | some e => decidable_of_iff (¬(e.projectPath = projectPath ∨ e.port = port) ∧
      (r.releasePort port (slugify projectPath)).lookup (slugify projectPath ++ "-" ++ toString port) ≠ none)
      ⟨fun h' => ⟨e, h, h'⟩, fun ⟨_, he, h'⟩ => by rw [h] at he; cases he; exact h'⟩

inductive SafeStep : Registry → Registry → Prop
  | upsert (r : Registry) (now : Time) (port : Int) (projectName projectPath version : String)
      (h : ¬r.Overwrites port projectPath) :
      SafeStep r (r.upsert now port projectName projectPath version).1
  | prune (r : Registry) (clock : Entry → Time) (entries : List Entry)
      (h : entries.Perm r.backends.entries) :
      SafeStep r (r.prune clock entries).1

namespace Backed

theorem port_eq (hb : r.Backed) (h₁ : r.byPort.lookup port = some s) (h₂ : r.byPort.lookup q = some s) :
    port = q := by
  obtain ⟨b₁, hb₁, rfl⟩ := hb h₁
  obtain ⟨b₂, hb₂, rfl⟩ := hb h₂
  rw [Option.some.inj (hb₁.symm.trans hb₂)]

theorem lookup_releasePort (hb : r.Backed) (h : r.byPort.lookup q = some s') (hq : q ≠ port) :
    (r.releasePort port s).lookup s' = r.backends.lookup s' := by
  rw [Registry.lookup_releasePort, if_neg fun h' => hq (hb.port_eq h'.1 h).symm]

theorem drop (hb : r.Backed) (h : r.backends.lookup s = some b) : (r.drop s b).Backed := by
  intro q s' hq
  simp only [byPort_lookup_drop] at hq
  split at hq
  · cases hq
  · next hne =>
    obtain ⟨b', hb', rfl⟩ := hb hq
    have hs : s' ≠ s := by rintro rfl; exact hne (by rw [Option.some.inj (h.symm.trans hb')])
    exact ⟨b', by simp [hs, hb'], rfl⟩

theorem updateExisting {slug : String} (hb : r.Backed) (he : (r.releasePort port slug).lookup slug = some e) :
    (r.updateExisting (r.releasePort port slug) slug e now port projectName projectPath version).Backed := by
  intro q s' hq
  have he' := (lookup_of_lookup_releasePort he).1
  simp only [byPort_lookup_updateExisting] at hq
  split at hq
  · next hqp =>
    cases hq
    exact ⟨_, by rw [lookup_updateExisting, if_pos rfl], hqp.symm⟩
  · next hqp =>
    split at hq
    · cases hq
    · next hqe =>
      obtain ⟨b', hb', rfl⟩ := hb hq
      have hs : s' ≠ slug := by rintro rfl; exact hqe (by rw [Option.some.inj (he'.symm.trans hb')])
      exact ⟨b', by rw [lookup_updateExisting, if_neg hs, hb.lookup_releasePort hq hqp, hb'], rfl⟩

end Backed

namespace Coherent

theorem new (d : Duration) : (Registry.new d).Coherent :=
  ⟨Indexed.new d, fun _ _ h => by simp [Registry.new, AList.lookup_empty] at h⟩

theorem drop (hc : r.Coherent) (h : r.backends.lookup s = some b) : (r.drop s b).Coherent :=
  ⟨hc.indexed.drop h, hc.backed.drop h⟩

theorem prune (hc : r.Coherent) {entries : List Entry} (h : entries.Perm r.backends.entries) :
    (r.prune clock entries).1.Coherent :=
  prune_induction Coherent (fun _ _ _ => Coherent.drop) hc h

theorem backed_upsert (hc : r.Coherent) (ho : ¬r.Overwrites port projectPath) :
    (r.upsert now port projectName projectPath version).1.Backed := by
  rcases upsert_cases r now port projectName projectPath version with ⟨e, he, -, hu⟩ | ⟨key, hkey, hu⟩ <;>
    rw [hu]
  case inl => exact hc.backed.updateExisting he
  case inr =>
    intro q s' hq
    -- The key written is free after `releasePort`, on both insertion paths.
    have hfree : (r.releasePort port (slugify projectPath)).lookup key = none := by
      rcases hkey with ⟨hnone, rfl⟩ | ⟨e, he, hne, rfl⟩
      · exact hnone
      · exact Option.eq_none_iff_forall_not_mem.mpr fun b' hb' =>
          ho ⟨e, he, hne, fun h => by rw [h] at hb'; cases hb'⟩
    simp only [byPort_lookup_insertNew] at hq
    split at hq
    · next hqp =>
      cases hq
      exact ⟨_, by rw [lookup_insertNew, if_pos rfl], hqp.symm⟩
    · next hqp =>
      obtain ⟨b', hb', rfl⟩ := hc.backed hq
      have hrel := hc.backed.lookup_releasePort (s := slugify projectPath) hq hqp
      have hs : s' ≠ key := by rintro rfl; rw [hrel, hb'] at hfree; cases hfree
      exact ⟨b', by rw [lookup_insertNew, if_neg hs, hrel, hb'], rfl⟩

theorem not_backed_upsert (hc : r.Coherent) (ho : r.Overwrites port projectPath) :
    ¬(r.upsert now port projectName projectPath version).1.Backed := by
  obtain ⟨e, he, hne, hkey⟩ := ho
  obtain ⟨b', hb'⟩ := Option.ne_none_iff_exists'.mp hkey
  obtain ⟨hb, hport⟩ := lookup_of_lookup_releasePort hb'
  have hbp : b'.port ≠ port := fun h => by
    have hk := (hc.indexed hb).2
    rw [h] at hk
    exact append_port_ne (slugify projectPath) port (hport hk)
  have hu : r.upsert now port projectName projectPath version =
      (r.insertNew (r.releasePort port (slugify projectPath)) (slugify projectPath ++ "-" ++ toString port)
        now port projectName projectPath version, true) := by
    simp only [Registry.upsert, he, if_neg hne]
  rw [hu]
  intro hback
  have hidx : (r.insertNew (r.releasePort port (slugify projectPath))
      (slugify projectPath ++ "-" ++ toString port) now port projectName projectPath version).byPort.lookup
        b'.port = some (slugify projectPath ++ "-" ++ toString port) := by
    rw [byPort_lookup_insertNew, if_neg hbp, (hc.indexed hb).2]
  obtain ⟨b'', hb'', hp⟩ := hback hidx
  simp only [lookup_insertNew, if_pos] at hb''
  cases hb''
  exact hbp hp.symm

theorem upsert (hc : r.Coherent) (ho : ¬r.Overwrites port projectPath) :
    (r.upsert now port projectName projectPath version).1.Coherent :=
  ⟨hc.indexed.upsert, hc.backed_upsert ho⟩

theorem lookupByPort (hc : r.Coherent) (p : Int) :
    (∃ o, r.lookupByPort p = .ok o) ∧
      (∀ b, r.lookupByPort p = .ok (some b) ↔ (∃ s, r.lookup s = some b) ∧ b.port = p) ∧
      (r.lookupByPort p = .ok none ↔ ∀ s b, r.lookup s = some b → b.port ≠ p) := by
  cases hp : r.byPort.lookup p with
  | none =>
    have hnone : ∀ s b, r.lookup s = some b → b.port ≠ p := fun s b hb he => by
      rw [← he, (hc.indexed hb).2] at hp; cases hp
    rw [show r.lookupByPort p = .ok none by simp [Registry.lookupByPort, hp]]
    exact ⟨⟨_, rfl⟩, fun b => ⟨fun h => (by cases h), fun ⟨⟨s, hb⟩, he⟩ => absurd he (hnone s b hb)⟩,
      iff_of_true rfl hnone⟩
  | some s =>
    obtain ⟨b, hb, rfl⟩ := hc.backed hp
    rw [lookupByPort_of_lookup hp hb]
    refine ⟨⟨_, rfl⟩, fun b' => ⟨fun h => ?_, fun ⟨⟨s', hs'⟩, he⟩ => ?_⟩,
      ⟨fun h => (by cases h), fun h => absurd rfl (h s b hb)⟩⟩
    · cases h
      exact ⟨⟨s, hb⟩, rfl⟩
    · -- The index sends the port of the backend under `s'` back to `s'`, so `s' = s`.
      rw [← he, (hc.indexed hs').2] at hp
      cases hp
      rw [Option.some.inj (hb.symm.trans hs')]

end Coherent

theorem SafeStep.coherent {d : Duration} (h : Relation.ReflTransGen SafeStep (Registry.new d) r) :
    r.Coherent := by
  induction h with
  | refl => exact .new d
  | tail _ hs ih =>
    cases hs with
    | upsert _ _ _ _ _ ho => exact ih.upsert ho
    | prune _ _ h => exact ih.prune h

theorem coherent_upsert_iff_not_overwrites (hc : r.Coherent) :
    ((r.upsert now port projectName projectPath version).1.Coherent ↔ ¬r.Overwrites port projectPath) ∧
      ∀ (clock : Entry → Time) (entries : List Entry), entries.Perm r.backends.entries →
        (r.prune clock entries).1.Coherent :=
  ⟨⟨fun h ho => hc.not_backed_upsert ho h.backed, hc.upsert⟩, fun _ _ h => hc.prune h⟩

theorem coherent_upsert_iff_not_overwrites_collisionSetup :
    collisionSetup.Coherent ∧ collisionSetup.Overwrites 30001 "/c/foo" ∧
      ((collisionSetup.upsert 0 30001 "foo" "/c/foo" "1").1.Coherent ↔
        ¬collisionSetup.Overwrites 30001 "/c/foo") ∧
      ∀ (clock : Entry → Time) (entries : List Entry), entries.Perm collisionSetup.backends.entries →
        (collisionSetup.prune clock entries).1.Coherent :=
  have hc : collisionSetup.Coherent := ⟨(((reachable_new _).upsert ..).upsert ..).indexed, by decide⟩
  ⟨hc, by decide, coherent_upsert_iff_not_overwrites hc⟩

theorem safe_run_lookupByPort_exact {d : Duration} (h : Relation.ReflTransGen SafeStep (Registry.new d) r)
    (p : Int) :
    (∃ o, r.lookupByPort p = .ok o) ∧
      (∀ b, r.lookupByPort p = .ok (some b) ↔ (∃ s, r.lookup s = some b) ∧ b.port = p) ∧
      (r.lookupByPort p = .ok none ↔ ∀ s b, r.lookup s = some b → b.port ≠ p) :=
  (SafeStep.coherent h).lookupByPort p

theorem safe_run_lookupByPort_exact_twoProjects :
    Relation.ReflTransGen SafeStep (Registry.new 30000000000) twoProjects ∧
      ((∃ o, twoProjects.lookupByPort 30002 = .ok o) ∧
        (∀ b, twoProjects.lookupByPort 30002 = .ok (some b) ↔
          (∃ s, twoProjects.lookup s = some b) ∧ b.port = 30002) ∧
        (twoProjects.lookupByPort 30002 = .ok none ↔
          ∀ s b, twoProjects.lookup s = some b → b.port ≠ 30002)) :=
  have h : Relation.ReflTransGen SafeStep (Registry.new 30000000000) twoProjects :=
    .tail (.single (.upsert _ 0 30001 "a" "/x/a" "1" (by decide)))
      (.upsert _ 40000000000 30002 "b" "/x/b" "1" (by decide))
  ⟨h, safe_run_lookupByPort_exact h 30002⟩

end Registry
