import OpenCodeRouter.Discovery.Theorems.Sync

namespace Advertiser

variable {a : Advertiser} {b : Backend} {s : String} {backends : List Backend} {outcomes : Outcomes}
  {currentSlugs : List String}

theorem attempts_cons :
    attempts a (b :: backends) outcomes =
      if b.slug ∈ a.servers then attempts a backends outcomes
      else (b.slug, outcomes 0) ::
        match a.register b (outcomes 0) with
        | .ok a' => attempts a' backends fun n => outcomes (n + 1)
        | .error _ => attempts a backends fun n => outcomes (n + 1) :=
  rfl

theorem addNew_lookup_of_mem (hs : s ∈ a.servers) :
    (a.addNew backends outcomes).servers.lookup s = a.servers.lookup s := by
  induction backends generalizing a outcomes with
  | nil => rfl
  | cons b bs ih =>
    unfold addNew
    split
    · exact ih hs
    · next hb =>
      split
      · next h =>
        have hne : s ≠ b.slug := fun he => hb (he ▸ hs)
        rw [register_eq_ok h]
        rw [ih ((AList.mem_insert _).mpr (.inr hs)), AList.lookup_insert_ne hne]
      · exact ih hs

theorem mem_addNew_of_mem (hs : s ∈ a.servers) : s ∈ (a.addNew backends outcomes).servers := by
  rw [← AList.lookup_isSome, addNew_lookup_of_mem hs, AList.lookup_isSome]
  exact hs

theorem mem_addNew_iff (hs : s ∉ a.servers) :
    s ∈ (a.addNew backends outcomes).servers ↔ (s, .ok ()) ∈ attempts a backends outcomes := by
  induction backends generalizing a outcomes with
  | nil => simpa [addNew, attempts] using hs
  | cons b bs ih =>
    rw [addNew, attempts_cons]
    split
    · exact ih hs
    · next hb =>
      cases ho : outcomes 0 with
      | error e => simpa [register] using ih hs
      | ok u =>
        by_cases he : s = b.slug
        · subst he
          simpa [register] using mem_addNew_of_mem ((AList.mem_insert _).mpr (.inl rfl))
        · simpa [register, he] using ih fun h => hs (((AList.mem_insert _).mp h).resolve_left he)

theorem attempted (hb : s ∈ backends.map (·.slug)) (hs : s ∉ a.servers) :
    ∃ r, (s, r) ∈ attempts a backends outcomes := by
  induction backends generalizing a outcomes with
  | nil => cases hb
  | cons b bs ih =>
    rw [attempts_cons]
    split
    · next hb' =>
      have hne : s ≠ b.slug := fun he => hs (he ▸ hb')
      exact ih ((List.mem_cons.mp hb).resolve_left hne) hs
    · by_cases he : s = b.slug
      · exact ⟨outcomes 0, by rw [he]; exact .head _⟩
      have hb := (List.mem_cons.mp hb).resolve_left he
      cases ho : outcomes 0 with
      | error e => simpa [register, he] using ih hb hs
      | ok u => simpa [register, he] using ih hb fun h => hs (((AList.mem_insert _).mp h).resolve_left he)

theorem addNew_of_forall_mem (h : ∀ b ∈ backends, b.slug ∈ a.servers) :
    a.addNew backends outcomes = a ∧ attempts a backends outcomes = [] := by
  induction backends generalizing outcomes with
  | nil => exact ⟨rfl, rfl⟩
  | cons b bs ih =>
    rw [addNew, attempts_cons, if_pos (h b (.head _)), if_pos (h b (.head _))]
    exact ih fun b' hb' => h b' (.tail _ hb')

theorem addNew_shutDown : (a.addNew backends outcomes).shutDown = a.shutDown :=
  addNew_induction (fun a' => a'.shutDown = a.shutDown)
    (fun _ _ _ _ h _ hr => by rw [register_eq_ok hr]; exact h) rfl

theorem foldl_removeStale_shutDown : ∀ (es : List Entry) (a : Advertiser),
    (es.foldl (removeStale currentSlugs) a).shutDown =
      a.shutDown ++ (es.filter fun e => e.1 ∉ currentSlugs).map (·.2.id)
  | [], _ => by simp
  | e :: es, a => by
    rw [List.foldl_cons, foldl_removeStale_shutDown es, removeStale, List.filter_cons]
    split <;> simp [*]

theorem foldl_removeStale_of_forall_mem : ∀ {es : List Entry} {a : Advertiser},
    (∀ e ∈ es, e.1 ∈ currentSlugs) → es.foldl (removeStale currentSlugs) a = a
  | [], _, _ => rfl
  | e :: es, a, h => by
    rw [List.foldl_cons, removeStale, if_pos (h e (.head _))]
    exact foldl_removeStale_of_forall_mem fun e' he' => h e' (.tail _ he')

theorem mem_foldl_removeStale_iff (hs : s ∈ currentSlugs) (entries : List Entry) :
    s ∈ (entries.foldl (removeStale currentSlugs) a).servers ↔ s ∈ a.servers := by
  rw [← AList.lookup_isSome, ← AList.lookup_isSome, (foldl_removeStale hs entries a).1]

variable {entries : List Entry}

theorem mem_sync_iff (hs : s ∈ backends.map (·.slug)) (ha : s ∉ a.servers) :
    s ∈ (a.sync backends entries outcomes).servers ↔
      (s, .ok ()) ∈ a.syncAttempts backends entries outcomes :=
  mem_addNew_iff fun h' => ha ((mem_foldl_removeStale_iff hs entries).mp h')

theorem mem_sync_of_ok (hall : ∀ s r, (s, r) ∈ a.syncAttempts backends entries outcomes → r = .ok ())
    (hs : s ∈ backends.map (·.slug)) : s ∈ (a.sync backends entries outcomes).servers := by
  by_cases ha : s ∈ a.servers
  · exact mem_addNew_of_mem ((mem_foldl_removeStale_iff hs entries).mpr ha)
  · obtain ⟨r, hr⟩ : ∃ r, (s, r) ∈ attempts _ backends outcomes :=
      attempted hs fun h' => ha ((mem_foldl_removeStale_iff hs entries).mp h')
    exact (mem_sync_iff hs ha).mpr (hall _ r hr ▸ hr)

structure Reconciles (a : Advertiser) (backends : List Backend) (entries : List Entry)
    (outcomes : Outcomes) : Prop where
  current : ∀ s ∈ (a.sync backends entries outcomes).servers, s ∈ backends.map (·.slug)
  kept : ∀ s ∈ backends.map (·.slug), s ∈ a.servers →
    (a.sync backends entries outcomes).servers.lookup s = a.servers.lookup s
  added : ∀ s ∈ backends.map (·.slug), s ∉ a.servers →
    (s ∈ (a.sync backends entries outcomes).servers ↔
      (s, .ok ()) ∈ a.syncAttempts backends entries outcomes)
  shutDown_eq : (a.sync backends entries outcomes).shutDown =
    a.shutDown ++ (entries.filter fun e => e.1 ∉ backends.map (·.slug)).map (·.2.id)
  idempotent : (∀ s r, (s, r) ∈ a.syncAttempts backends entries outcomes → r = .ok ()) →
    ∀ entries' : List Entry, entries'.Perm (a.sync backends entries outcomes).servers.entries →
      ∀ outcomes' : Outcomes,
        (a.sync backends entries outcomes).syncAttempts backends entries' outcomes' = [] ∧
        (a.sync backends entries outcomes).sync backends entries' outcomes' =
          a.sync backends entries outcomes

theorem sync_reconciles (h : entries.Perm a.servers.entries) (backends : List Backend)
    (outcomes : Outcomes) : a.Reconciles backends entries outcomes := by
  have hcurrent : ∀ s ∈ (a.sync backends entries outcomes).servers, s ∈ backends.map (·.slug) :=
    fun _ hs => have ⟨_, hsrv⟩ := Option.isSome_iff_exists.mp (AList.lookup_isSome.mpr hs)
      sync_lookup h hsrv
  refine ⟨hcurrent, fun s hs ha => ?_, fun _ => mem_sync_iff, ?_, fun hall entries' h' outcomes' => ?_⟩
  · rw [sync, addNew_lookup_of_mem ((mem_foldl_removeStale_iff hs entries).mpr ha),
      (foldl_removeStale hs entries a).1]
  · rw [sync, addNew_shutDown, foldl_removeStale_shutDown]
  · -- A second `Sync` finds every server under a current slug and every slug of the snapshot
    -- advertised, so neither loop does anything.
    have hfix : entries'.foldl (removeStale (backends.map (·.slug))) (a.sync backends entries outcomes) =
        a.sync backends entries outcomes := foldl_removeStale_of_forall_mem
      fun e he => hcurrent e.1 (AList.mem_keys.mp (List.mem_map_of_mem Sigma.fst (h'.subset he)))
    obtain ⟨h₁, h₂⟩ : (a.sync backends entries outcomes).addNew backends outcomes' = _ ∧ _ :=
      addNew_of_forall_mem fun b hb => mem_sync_of_ok hall (List.mem_map_of_mem _ hb)
    exact ⟨(congrArg (attempts · backends outcomes') hfix).trans h₂,
      (congrArg (addNew · backends outcomes') hfix).trans h₁⟩

theorem sync_reconciles_advertisedOnce :
    advertisedOnce.servers.entries.Perm advertisedOnce.servers.entries ∧
      advertisedOnce.Reconciles [aliceBackend 30002] advertisedOnce.servers.entries fun _ => .ok () :=
  ⟨.refl _, sync_reconciles (.refl _) _ _⟩

end Advertiser
