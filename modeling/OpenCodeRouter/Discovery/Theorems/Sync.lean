import OpenCodeRouter.Discovery.Theorems.Handles

namespace Advertiser

variable {a : Advertiser} {b : Backend} {s : String} {backends : List Backend} {outcomes : Outcomes}

@[simp] theorem register_ok :
    a.register b (.ok ()) = .ok { a with
      servers := a.servers.insert b.slug ⟨a.created, registration a.cfg a.outboundIP b⟩
      created := a.created + 1 } :=
  rfl

theorem foldl_removeStale {currentSlugs : List String} (hs : s ∈ currentSlugs) :
    ∀ (entries : List Entry) (a : Advertiser),
      let a' := entries.foldl (removeStale currentSlugs) a
      a'.servers.lookup s = a.servers.lookup s ∧ a'.cfg = a.cfg ∧ a'.outboundIP = a.outboundIP
  | [], _ => ⟨rfl, rfl, rfl⟩
  | e :: es, a => by
    obtain ⟨h₁, h₂, h₃⟩ := foldl_removeStale hs es (removeStale currentSlugs a e)
    refine ⟨h₁.trans ?_, h₂.trans ?_, h₃.trans ?_⟩ <;> unfold removeStale <;> split
    · rfl
    · exact AList.lookup_erase_ne fun he => ‹e.1 ∉ currentSlugs› (he ▸ hs)
    all_goals rfl

theorem addNew_lookup_of_not_mem (hs : s ∉ backends.map (·.slug)) :
    (a.addNew backends outcomes).servers.lookup s = a.servers.lookup s := by
  induction backends generalizing a outcomes with
  | nil => rfl
  | cons b bs ih =>
    simp only [List.map_cons, List.mem_cons, not_or] at hs
    unfold addNew
    split
    · exact ih hs.2
    · split
      · next h =>
        rw [ih hs.2, register_eq_ok h]
        exact AList.lookup_insert_ne hs.1
      · exact ih hs.2

theorem addNew_registration (hd : (backends.map (·.slug)).Nodup) (hok : ∀ n, outcomes n = .ok ())
    (hb : b ∈ backends) :
    ((a.addNew backends outcomes).servers.lookup b.slug).map (·.registration) =
      if b.slug ∈ a.servers then (a.servers.lookup b.slug).map (·.registration)
      else some (registration a.cfg a.outboundIP b) := by
  induction backends generalizing a outcomes with
  | nil => cases hb
  | cons b' bs ih =>
    rw [List.map_cons, List.nodup_cons] at hd
    unfold addNew
    rw [hok 0, register_ok]
    rcases List.mem_cons.mp hb with rfl | hb
    · by_cases hs : b.slug ∈ a.servers
      · rw [if_pos hs, if_pos hs, addNew_lookup_of_not_mem hd.1]
      · rw [if_neg hs, if_neg hs]
        dsimp only
        rw [addNew_lookup_of_not_mem hd.1, AList.lookup_insert]
        rfl
    · have hne : b.slug ≠ b'.slug := fun he => hd.1 (he ▸ List.mem_map_of_mem _ hb)
      by_cases hs : b'.slug ∈ a.servers
      · rw [if_pos hs]
        exact ih hd.2 hok hb
      · rw [if_neg hs]
        dsimp only
        rw [ih hd.2 (fun n => hok _) hb]
        simp [AList.lookup_insert_ne hne, AList.mem_insert, hne]

theorem foldl_removeStale_current {currentSlugs : List String} {entries : List Entry}
    (h : entries.Perm a.servers.entries) {srv : Server}
    (hs : (entries.foldl (removeStale currentSlugs) a).servers.lookup s = some srv) :
    s ∈ currentSlugs := by
  by_contra hc
  suffices ∀ (es : List Entry) (a : Advertiser), (∀ srv, a.servers.lookup s = some srv → ⟨s, srv⟩ ∈ es) →
      (es.foldl (removeStale currentSlugs) a).servers.lookup s = none by
    rw [this entries a fun srv h' => h.symm.subset (AList.mem_lookup_iff.mp h')] at hs
    cases hs
  intro es
  induction es with
  | nil => intro a ha; exact Option.eq_none_iff_forall_not_mem.mpr fun srv h' => by cases ha srv h'
  | cons e es ih =>
    intro a ha
    rw [List.foldl_cons]
    refine ih _ fun srv' h' => ?_
    unfold removeStale at h'
    split at h'
    · rcases List.mem_cons.mp (ha srv' h') with he | he
      · exact absurd (show s ∈ currentSlugs by rw [show s = e.1 from congrArg Sigma.fst he]; assumption) hc
      · exact he
    · obtain ⟨hne, h'⟩ := lookup_of_lookup_erase h'
      rcases List.mem_cons.mp (ha srv' h') with he | he
      · exact absurd (congrArg Sigma.fst he) hne
      · exact he

theorem addNew_lookup {srv : Server} (hs : (a.addNew backends outcomes).servers.lookup s = some srv) :
    s ∈ backends.map (·.slug) ∨ a.servers.lookup s = some srv := by
  by_cases hb : s ∈ backends.map (·.slug)
  · exact .inl hb
  · exact .inr ((addNew_lookup_of_not_mem hb).symm.trans hs)

theorem sync_lookup {entries : List Entry} (h : entries.Perm a.servers.entries) {srv : Server}
    (hs : (a.sync backends entries outcomes).servers.lookup s = some srv) :
    s ∈ backends.map (·.slug) :=
  (addNew_lookup hs).elim id (foldl_removeStale_current h)

def Registered (a : Advertiser) : Prop :=
  ∀ ⦃s srv⦄, a.servers.lookup s = some srv →
    srv.registration.instanceName = s ∧ srv.registration.host = a.cfg.domainFor s ∧
      srv.registration.domain = "local."

theorem Registered.step {a' : Advertiser} (hs : Step a a') (h : a.Registered) : a'.Registered := by
  cases hs with
  | shutdown => intro s srv hl; simp [Advertiser.shutdown, AList.lookup_empty] at hl
  | sync _ hp _ =>
    refine addNew_induction Registered (fun a a' b _ h _ hr => ?_)
      (removeStale_induction Registered (fun a _ _ h _ s' srv hl => h (lookup_of_lookup_erase hl).2)
        hp h)
    rw [register_eq_ok hr]
    intro s srv hl
    rcases lookup_insert_cases hl with ⟨rfl, rfl⟩ | ⟨-, hl⟩
    exacts [⟨rfl, rfl, rfl⟩, h hl]

theorem Reachable.registered (hr : a.Reachable) : a.Registered :=
  Reachable.induction (fun _ _ _ _ h => by simp [Advertiser.new, AList.lookup_empty] at h)
    (fun _ _ => Registered.step) hr

theorem Registered.hostName (h : a.Registered) {s : String} {srv : Server} (hs : IsSlug s)
    (hl : a.servers.lookup s = some srv) :
    srv.registration.hostName = a.cfg.domainFor s ++ ".local." :=
  have ⟨_, hh, hd⟩ := h hl
  Registration.hostName_domainFor hd hh hs

theorem sync_advertises_new_slugs_only (hd : (backends.map (·.slug)).Nodup)
    (hok : ∀ n, outcomes n = .ok ()) {entries : List Entry} (hb : b ∈ backends) :
    ((a.sync backends entries outcomes).servers.lookup b.slug).map (·.registration) =
      if b.slug ∈ a.servers then (a.servers.lookup b.slug).map (·.registration)
      else some (registration a.cfg a.outboundIP b) := by
  obtain ⟨h₁, h₂, h₃⟩ := foldl_removeStale (List.mem_map_of_mem (·.slug) hb) entries a
  rw [sync, addNew_registration hd hok hb]
  simp only [← AList.lookup_isSome, h₁, h₂, h₃]

theorem sync_advertises_new_slugs_only_advertisedOnce :
    ([aliceBackend 30002].map (·.slug)).Nodup ∧ (∀ n, (fun _ => .ok () : Outcomes) n = .ok ()) ∧
      aliceBackend 30002 ∈ [aliceBackend 30002] ∧
      ((advertisedOnce.sync [aliceBackend 30002] advertisedOnce.servers.entries fun _ => .ok ()).servers.lookup
          (aliceBackend 30002).slug).map (·.registration) =
        if (aliceBackend 30002).slug ∈ advertisedOnce.servers then
          (advertisedOnce.servers.lookup (aliceBackend 30002).slug).map (·.registration)
        else some (registration advertisedOnce.cfg advertisedOnce.outboundIP (aliceBackend 30002)) :=
  have hd := by decide
  have hok := fun _ => rfl
  have hb := List.mem_singleton_self _
  ⟨hd, hok, hb, sync_advertises_new_slugs_only hd hok hb⟩

theorem sync_keeps_stale_backend_txt :
    advertisedOnce.Reachable ∧
      ((advertisedOnce.sync [aliceBackend 30002] advertisedOnce.servers.entries
          fun _ => .ok ()).servers.lookup "proj").map (·.registration.txt) =
        some ["project=proj", "path=/home/alice/proj", "backend=127.0.0.1:30001", "owner=alice",
          "version=1"] :=
  ⟨reachable_advertisedOnce, by decide⟩

end Advertiser
