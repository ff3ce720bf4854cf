import OpenCodeRouter.Discovery.Advertiser

namespace Advertiser

variable {a a' : Advertiser} {b : Backend} {s : String} {srv : Server}

structure Handles (a : Advertiser) : Prop where
  nodup : a.shutDown.Nodup
  shutDown_lt : ∀ i ∈ a.shutDown, i < a.created
  live_iff : ∀ i, (i < a.created ∧ i ∉ a.shutDown) ↔ ∃ s srv, a.servers.lookup s = some srv ∧ srv.id = i
  stored_once : ∀ ⦃s s' srv srv'⦄, a.servers.lookup s = some srv → a.servers.lookup s' = some srv' →
    srv.id = srv'.id → s = s'

theorem lookup_insert_cases {m : AList fun _ : String => Server} {k : String} {v : Server}
    (h : (m.insert k v).lookup s = some srv) : s = k ∧ srv = v ∨ s ≠ k ∧ m.lookup s = some srv := by
  by_cases hs : s = k
  · subst hs
    rw [AList.lookup_insert] at h
    exact .inl ⟨rfl, (Option.some.inj h).symm⟩
  · exact .inr ⟨hs, (AList.lookup_insert_ne hs).symm.trans h⟩

theorem lookup_of_lookup_erase {m : AList fun _ : String => Server} {k : String}
    (h : (m.erase k).lookup s = some srv) : s ≠ k ∧ m.lookup s = some srv := by
  have hs : s ≠ k := by rintro rfl; simp [AList.lookup_erase] at h
  exact ⟨hs, (AList.lookup_erase_ne hs).symm.trans h⟩

namespace Handles

theorem new (cfg : Config) (ip : String) : (Advertiser.new cfg ip).Handles where
  nodup := .nil
  shutDown_lt := by simp [Advertiser.new]
  live_iff := by simp [Advertiser.new, AList.lookup_empty]
  stored_once := by simp [Advertiser.new, AList.lookup_empty]

theorem live (hh : a.Handles) (h : a.servers.lookup s = some srv) :
    srv.id < a.created ∧ srv.id ∉ a.shutDown :=
  (hh.live_iff _).mpr ⟨s, srv, h, rfl⟩

theorem register (hh : a.Handles) (hb : b.slug ∉ a.servers) {outcome : Except String Unit}
    (hr : a.register b outcome = .ok a') : a'.Handles := by
  rw [register_eq_ok hr]
  have hold : ∀ {s srv}, a.servers.lookup s = some srv → s ≠ b.slug := fun h he =>
    hb (AList.lookup_isSome.mp (by rw [← he, h]; rfl))
  constructor
  · exact hh.nodup
  · exact fun i hi => Nat.lt_succ_of_lt (hh.shutDown_lt i hi)
  · intro i
    constructor
    · rintro ⟨hi, hs⟩
      rcases Nat.lt_succ_iff_lt_or_eq.mp hi with hi | rfl
      · obtain ⟨s, srv, h, rfl⟩ := (hh.live_iff _).mp ⟨hi, hs⟩
        exact ⟨s, srv, (AList.lookup_insert_ne (hold h)).trans h, rfl⟩
      · exact ⟨b.slug, _, AList.lookup_insert _, rfl⟩
    · rintro ⟨s, srv, h, rfl⟩
      rcases lookup_insert_cases h with ⟨-, rfl⟩ | ⟨-, h⟩
      · exact ⟨Nat.lt_succ_self _, fun h => (hh.shutDown_lt _ h).false⟩
      · exact ⟨Nat.lt_succ_of_lt (hh.live h).1, (hh.live h).2⟩
  · intro s s' srv srv' h h' hid
    rcases lookup_insert_cases h with ⟨rfl, rfl⟩ | ⟨hs, h⟩ <;>
      rcases lookup_insert_cases h' with ⟨rfl, rfl⟩ | ⟨hs', h'⟩
    · rfl
    · exact absurd (hid ▸ (hh.live h').1) (lt_irrefl _)
    · exact absurd (hid.symm ▸ (hh.live h).1) (lt_irrefl _)
    · exact hh.stored_once h h' hid

theorem remove (hh : a.Handles) (h : a.servers.lookup s = some srv) :
    ({ a with servers := a.servers.erase s, shutDown := a.shutDown ++ [srv.id] } : Advertiser).Handles := by
  have hsrv := hh.live h
  constructor
  · exact hh.nodup.append (List.nodup_singleton _) (List.disjoint_singleton.mpr hsrv.2)
  · intro i hi
    rcases List.mem_append.mp hi with hi | hi
    exacts [hh.shutDown_lt i hi, List.eq_of_mem_singleton hi ▸ hsrv.1]
  · intro i
    simp only [List.mem_append, List.mem_singleton, not_or]
    constructor
    · rintro ⟨hi, hs, hne⟩
      obtain ⟨s', srv', h', rfl⟩ := (hh.live_iff _).mp ⟨hi, hs⟩
      have hs' : s' ≠ s := fun he => hne (by rw [he, h] at h'; cases h'; rfl)
      exact ⟨s', srv', (AList.lookup_erase_ne hs').trans h', rfl⟩
    · rintro ⟨s', srv', h', rfl⟩
      obtain ⟨hs', h'⟩ := lookup_of_lookup_erase h'
      exact ⟨(hh.live h').1, (hh.live h').2, fun hid => hs' (hh.stored_once h' h hid)⟩
  · intro s₁ s₂ srv₁ srv₂ h₁ h₂
    exact hh.stored_once (lookup_of_lookup_erase h₁).2 (lookup_of_lookup_erase h₂).2

theorem shutdown (hh : a.Handles) {entries : List Entry} (h : entries.Perm a.servers.entries) :
    (a.shutdown entries).Handles := by
  have hmem : ∀ e ∈ entries, a.servers.lookup e.1 = some e.2 := fun e he =>
    AList.mem_lookup_iff.mpr (h.subset he)
  have hids : (entries.map (·.2.id)).Nodup := by
    refine List.Nodup.map_on ?_ (h.nodup_iff.mpr a.servers.nodupKeys.nodup)
    rintro ⟨k, v⟩ hx ⟨k', v'⟩ hy hid
    have hk : k = k' := hh.stored_once (hmem _ hx) (hmem _ hy) hid
    subst hk
    cases Option.some.inj ((hmem ⟨k, v⟩ hx).symm.trans (hmem ⟨k, v'⟩ hy))
    rfl
  constructor
  · refine hh.nodup.append hids fun i hi hi' => ?_
    obtain ⟨e, he, rfl⟩ := List.mem_map.mp hi'
    exact (hh.live (hmem e he)).2 hi
  · intro i hi
    rcases List.mem_append.mp hi with hi | hi
    · exact hh.shutDown_lt i hi
    · obtain ⟨e, he, rfl⟩ := List.mem_map.mp hi
      exact (hh.live (hmem e he)).1
  · intro i
    simp only [Advertiser.shutdown, AList.lookup_empty, List.mem_append, not_or]
    refine ⟨fun ⟨hi, hs, hn⟩ => ?_, fun ⟨_, _, h, _⟩ => by cases h⟩
    obtain ⟨s, srv, hl, rfl⟩ := (hh.live_iff _).mp ⟨hi, hs⟩
    exact absurd (List.mem_map_of_mem (·.2.id) (h.symm.subset (AList.mem_lookup_iff.mp hl))) hn
  · intro _ _ _ _ h
    simp [Advertiser.shutdown, AList.lookup_empty] at h

theorem step (hs : Step a a') (hh : a.Handles) : a'.Handles := by
  cases hs with
  | sync _ h _ =>
    exact addNew_induction Handles (fun _ _ _ _ hh hb hr => hh.register hb hr)
      (removeStale_induction Handles (fun _ _ _ hh h => hh.remove h) h hh)
  | shutdown h => exact hh.shutdown h

end Handles

theorem Reachable.handles (hr : a.Reachable) : a.Handles :=
  Reachable.induction Handles.new (fun _ _ => Handles.step) hr

def aliceBackend (port : Int) : Backend :=
  ⟨port, "proj", "/home/alice/proj", "proj", "1", 0⟩

def advertisedOnce : Advertiser :=
  (Advertiser.new (Config.defaults (some "alice")) "192.168.1.10").sync [aliceBackend 30001] []
    fun _ => .ok ()

theorem reachable_advertisedOnce : advertisedOnce.Reachable :=
  (reachable_new _ _).step (.sync _ _ .nil _)

theorem handles_shut_down_once (hr : a.Reachable) :
    a.shutDown.Nodup ∧ (∀ i ∈ a.shutDown, i < a.created) ∧
      (∀ i, (i < a.created ∧ i ∉ a.shutDown) ↔ ∃ s srv, a.servers.lookup s = some srv ∧ srv.id = i) ∧
      (∀ ⦃s s' srv srv'⦄, a.servers.lookup s = some srv → a.servers.lookup s' = some srv' →
        srv.id = srv'.id → s = s') ∧
      ∀ {entries : List Entry}, entries.Perm a.servers.entries →
        (a.shutdown entries).shutDown.Nodup ∧
          ∀ i < (a.shutdown entries).created, i ∈ (a.shutdown entries).shutDown := by
  have hh := hr.handles
  refine ⟨hh.nodup, hh.shutDown_lt, hh.live_iff, hh.stored_once, fun h => ?_⟩
  have hs := hh.shutdown h
  refine ⟨hs.nodup, fun i hi => by_contra fun hn => ?_⟩
  obtain ⟨_, _, hl, -⟩ := (hs.live_iff i).mp ⟨hi, hn⟩
  simp [Advertiser.shutdown, AList.lookup_empty] at hl

theorem handles_shut_down_once_advertisedOnce :
    advertisedOnce.Reachable ∧
      (advertisedOnce.shutDown.Nodup ∧ (∀ i ∈ advertisedOnce.shutDown, i < advertisedOnce.created) ∧
        (∀ i, (i < advertisedOnce.created ∧ i ∉ advertisedOnce.shutDown) ↔
          ∃ s srv, advertisedOnce.servers.lookup s = some srv ∧ srv.id = i) ∧
        (∀ ⦃s s' srv srv'⦄, advertisedOnce.servers.lookup s = some srv →
          advertisedOnce.servers.lookup s' = some srv' → srv.id = srv'.id → s = s') ∧
        ∀ {entries : List Entry}, entries.Perm advertisedOnce.servers.entries →
          (advertisedOnce.shutdown entries).shutDown.Nodup ∧
            ∀ i < (advertisedOnce.shutdown entries).created, i ∈ (advertisedOnce.shutdown entries).shutDown) :=
  ⟨reachable_advertisedOnce, handles_shut_down_once reachable_advertisedOnce⟩

end Advertiser
