import OpenCodeRouter.Main
import OpenCodeRouter.Discovery.Theorems.Reconcile
import OpenCodeRouter.Theorems.Advertised
import OpenCodeRouter.Scanner.Theorems.Cancellation

namespace Advertiser

theorem Handles.mem_shutDown_shutdown {a : Advertiser} (hh : a.Handles) {entries : List Entry}
    (h : entries.Perm a.servers.entries) {i : Nat} (hi : i < a.created) :
    i ∈ (a.shutdown entries).shutDown :=
  by_contra fun hn => by
    obtain ⟨_, _, hl, -⟩ := ((hh.shutdown h).live_iff i).mp ⟨hi, hn⟩
    simp [Advertiser.shutdown, AList.lookup_empty] at hl

theorem shutDown_sync_of_mem {a : Advertiser} {backends : List Backend} {entries : List Entry}
    {outcomes : Outcomes} {i : Nat} (hi : i ∈ a.shutDown) : i ∈ (a.sync backends entries outcomes).shutDown := by
  rw [sync, addNew_shutDown, foldl_removeStale_shutDown]
  exact List.mem_append_left _ hi

end Advertiser

namespace Main

open Router (aliceRouter aliceAdvertiser projServer)

variable {m m' : Main} {a : Advertiser} {s : String} {srv : Server}

structure Inv (m : Main) : Prop where
  registry : m.registry.Reachable
  adv : ∀ ⦃a⦄, m.adv = some a → a.Reachable ∧ a.cfg = m.cfg
  slugs : ∀ ⦃a s srv⦄, m.adv = some a → a.servers.lookup s = some srv → IsSlug s
  snapshot : ∀ ⦃backends⦄, m.syncPc = .syncing backends → ∀ b ∈ backends, IsSlug b.slug
  shutDown : m.AfterShutdown → ∀ ⦃a⦄, m.adv = some a → ∀ i < m.createdAtShutdown, i ∈ a.shutDown

namespace Inv

theorem start (cfg : Config) (ip : String) : (Main.start cfg ip).Inv := by
  unfold Main.start
  split
  -- Before the signal nothing is shut down, and the goroutine holds no snapshot.
  all_goals refine ⟨Registry.reachable_new _, ?_, ?_, fun _ h => SyncPc.noConfusion h,
    fun h => h.elim MainPc.noConfusion MainPc.noConfusion⟩
  · rintro _ ⟨⟩; exact ⟨Advertiser.reachable_new _ _, rfl⟩
  · rintro _ _ _ ⟨⟩ h; simp [Advertiser.new, AList.lookup_empty] at h
  · exact fun _ h => Option.noConfusion h
  · exact fun _ _ _ h => Option.noConfusion h

theorem step (hi : m.Inv) (hs : Step m m') : m'.Inv := by
  cases hs with
  | scanner _ h => exact ⟨hi.registry.step h, hi.adv, hi.slugs, hi.snapshot, hi.shutDown⟩
  | tick _ _ _ he =>
    refine ⟨hi.registry, hi.adv, hi.slugs, fun _ h b hb => ?_, hi.shutDown⟩
    cases h
    exact (hi.registry.wellKeyed (hi.registry.indexed.lookup_of_mem_all he hb)).1
  | sync _ ha hs he =>
    refine ⟨hi.registry, fun _ h => ?_, ?_, nofun, fun hm _ h i hi' => ?_⟩
    · cases h
      exact ⟨(hi.adv ha).1.step (.sync _ _ he _),
        (Advertiser.Step.cfg_eq (.sync _ _ he _)).1.trans (hi.adv ha).2⟩
    · rintro _ s _ ⟨⟩ h
      obtain ⟨b, hb, rfl⟩ := List.mem_map.mp (Advertiser.sync_lookup he h)
      exact hi.snapshot hs b hb
    · cases h
      exact Advertiser.shutDown_sync_of_mem (hi.shutDown hm ha i hi')
  | stop => exact ⟨hi.registry, hi.adv, hi.slugs, nofun, hi.shutDown⟩
  | signal hm => exact ⟨hi.registry, hi.adv, hi.slugs, hi.snapshot, fun h => by simp [AfterShutdown] at h⟩
  | shutdown _ ha he =>
    have ⟨hr, hcfg⟩ := hi.adv ha
    refine ⟨hi.registry, ?_, ?_, hi.snapshot, fun _ _ h i hi' => ?_⟩
    · rintro _ ⟨⟩; exact ⟨hr.step (.shutdown _ he), hcfg⟩
    · rintro _ _ _ ⟨⟩ h; simp [Advertiser.shutdown, AList.lookup_empty] at h
    · cases h
      exact hr.handles.mem_shutDown_shutdown he hi'
  | skipShutdown _ ha =>
    refine ⟨hi.registry, hi.adv, hi.slugs, hi.snapshot, fun _ a h => ?_⟩
    rw [ha] at h; cases h
  | finish hm => exact ⟨hi.registry, hi.adv, hi.slugs, hi.snapshot, fun _ => hi.shutDown (.inl hm)⟩
  | fail => exact ⟨hi.registry, hi.adv, hi.slugs, hi.snapshot, fun h => by simp [AfterShutdown] at h⟩

end Inv

theorem Reachable.inv (hr : m.Reachable) : m.Inv :=
  Reachable.induction Inv.start (fun _ _ _ hs hi => hi.step hs) hr

theorem scanner_runs_are_main_runs {sc : Scanner} {p p' : Scanner.Pass} (hm : m.Running)
    (hp : p.registry = m.registry) (h : Relation.ReflTransGen (Scanner.Step sc) p p') :
    Relation.ReflTransGen Step m { m with registry := p'.registry } := by
  induction h with
  | refl => rw [hp]
  | tail _ hs ih =>
    rcases hs.registry with h | h
    · rw [h]; exact ih
    · exact ih.tail (.scanner hm h)

def aliceProbedPass : Scanner.Pass :=
  ⟨Scanner.probe (Registry.new 30000000000) 0 30000 (.ok ⟨true, "1"⟩) (.ok ⟨"p", "/home/alice/proj"⟩),
    false, .loop, 30001, 1, 1, [], [30000], [], [30000]⟩

theorem scanner_runs_are_main_runs_aliceProbedPass :
    (start aliceRouter.cfg "192.168.1.10").Running ∧
      (Scanner.start Scanner.twoPorts (Registry.new 30000000000) false).registry =
        (start aliceRouter.cfg "192.168.1.10").registry ∧
      Relation.ReflTransGen (Scanner.Step Scanner.twoPorts)
        (Scanner.start Scanner.twoPorts (Registry.new 30000000000) false) aliceProbedPass ∧
      Relation.ReflTransGen Step (start aliceRouter.cfg "192.168.1.10")
        { start aliceRouter.cfg "192.168.1.10" with registry := aliceProbedPass.registry } :=
  have hm : (start aliceRouter.cfg "192.168.1.10").Running := by decide
  have hp : (Scanner.start Scanner.twoPorts (Registry.new 30000000000) false).registry =
      (start aliceRouter.cfg "192.168.1.10").registry := rfl
  have hsent := (Relation.ReflTransGen.single (@Scanner.Step.check Scanner.twoPorts
    (Scanner.start Scanner.twoPorts (Registry.new 30000000000) false) rfl (by decide) rfl)).tail
    (.send rfl (by decide))
  have h : Relation.ReflTransGen (Scanner.Step Scanner.twoPorts)
      (Scanner.start Scanner.twoPorts (Registry.new 30000000000) false) aliceProbedPass :=
    hsent.tail (@Scanner.Step.probe _ _ 30000 (by decide) 0 (.ok ⟨true, "1"⟩) (.ok ⟨"p", "/home/alice/proj"⟩))
  ⟨hm, hp, h, scanner_runs_are_main_runs hm hp h⟩

def aliceSyncedAdv : Advertiser :=
  aliceAdvertiser.sync (Registry.all aliceRouter.registry.backends.entries) [] fun _ => .ok ()

def aliceTicked : Main :=
  ⟨aliceRouter.cfg, aliceRouter.registry, some aliceAdvertiser,
    .syncing (Registry.all aliceRouter.registry.backends.entries), .serving, 0⟩

theorem reachable_aliceTicked : aliceTicked.Reachable :=
  ((reachable_start aliceRouter.cfg "192.168.1.10").tail
    (.scanner (by decide) (.upsert _ 0 30001 "proj" "/home/alice/proj" "1"))).tail
    (.tick (by decide) rfl rfl (.refl _))

theorem shutdown_leaves_only_later_handles (hr : m.Reachable) (hm : m.AfterShutdown)
    (ha : m.adv = some a) :
    a.shutDown.Nodup ∧ (∀ i < m.createdAtShutdown, i ∈ a.shutDown) ∧
      ∀ ⦃s srv⦄, a.servers.lookup s = some srv → m.createdAtShutdown ≤ srv.id ∧ srv.id < a.created := by
  have hi := hr.inv
  have hh := (hi.adv ha).1.handles
  exact ⟨hh.nodup, hi.shutDown hm ha, fun _ _ h =>
    ⟨le_of_not_lt fun hlt => (hh.live h).2 (hi.shutDown hm ha _ hlt), (hh.live h).1⟩⟩

def racedAdv : Advertiser :=
  (aliceAdvertiser.shutdown []).sync (Registry.all aliceRouter.registry.backends.entries) [] fun _ => .ok ()

def racedReturn : Main :=
  ⟨aliceRouter.cfg, aliceRouter.registry, some racedAdv, .select, .returned, 0⟩

theorem shutdown_leaves_only_later_handles_racedReturn :
    racedReturn.Reachable ∧ racedReturn.AfterShutdown ∧ racedReturn.adv = some racedAdv ∧
      racedAdv.servers.lookup "proj" = some projServer ∧
      (racedAdv.shutDown.Nodup ∧ (∀ i < racedReturn.createdAtShutdown, i ∈ racedAdv.shutDown) ∧
        ∀ ⦃s srv⦄, racedAdv.servers.lookup s = some srv →
          racedReturn.createdAtShutdown ≤ srv.id ∧ srv.id < racedAdv.created) :=
  have hr : racedReturn.Reachable :=
    (((reachable_aliceTicked.tail (.signal rfl)).tail (@Step.shutdown _ aliceAdvertiser rfl rfl [] .nil)).tail
      (.sync (by decide) rfl rfl .nil _)).tail (.finish rfl)
  ⟨hr, .inr rfl, rfl, by decide, shutdown_leaves_only_later_handles hr (.inr rfl) rfl⟩

def QuietAfter (m : Main) : Prop :=
  m.syncPc = .returned ∧ (m.mainPc = .cancelled ∨ m.mainPc = .failed ∨
    m.AfterShutdown ∧ ∀ ⦃a⦄, m.adv = some a → a.servers = ∅ ∧ ∀ i < a.created, i ∈ a.shutDown)

theorem QuietAfter.step (hr : m.Reachable) (hq : m.QuietAfter) (hs : Step m m') : m'.QuietAfter := by
  obtain ⟨hret, hq⟩ := hq
  cases hs with
  | scanner => exact ⟨hret, hq⟩
  | tick _ _ h | sync _ _ h | stop _ h => rw [hret] at h; cases h
  | signal hm => rcases hq with h | h | ⟨h | h, -⟩ <;> rw [hm] at h <;> cases h
  | shutdown _ ha he =>
    refine ⟨hret, .inr (.inr ⟨.inl rfl, fun _ h => ?_⟩)⟩
    cases h
    exact ⟨rfl, fun _ => ((hr.inv.adv ha).1.handles.mem_shutDown_shutdown he)⟩
  | skipShutdown _ ha => exact ⟨hret, .inr (.inr ⟨.inl rfl, fun _ h => by rw [ha] at h; cases h⟩)⟩
  | finish hm =>
    rcases hq with h | h | ⟨-, h⟩
    iterate 2 rw [hm] at h; cases h
    exact ⟨hret, .inr (.inr ⟨.inr rfl, h⟩)⟩
  | fail => exact ⟨hret, .inr (.inl rfl)⟩

theorem QuietAfter.run (hr : m.Reachable) (hq : m.QuietAfter) (h : Relation.ReflTransGen Step m m') :
    m'.QuietAfter := by
  induction h with
  | refl => exact hq
  | tail h hs ih => exact ih.step (hr.trans h) hs

theorem shutdown_after_sync_returned (hr : m.Reachable) (hs : m.syncPc = .returned)
    (hm : m.mainPc = .cancelled) (h : Relation.ReflTransGen Step m m') (hm' : m'.AfterShutdown)
    (ha : m'.adv = some a) : a.servers = ∅ ∧ ∀ i < a.created, i ∈ a.shutDown := by
  rcases (QuietAfter.run hr ⟨hs, .inl hm⟩ h).2 with h | h | ⟨-, h⟩
  iterate 2 rcases hm' with h' | h' <;> rw [h'] at h <;> cases h
  exact h ha

def aliceQuiet : Main :=
  ⟨aliceRouter.cfg, aliceRouter.registry, some aliceSyncedAdv, .returned, .cancelled, 0⟩

def aliceQuietReturn : Main :=
  ⟨aliceRouter.cfg, aliceRouter.registry,
    some (aliceSyncedAdv.shutdown aliceSyncedAdv.servers.entries), .returned, .returned, 1⟩

theorem shutdown_after_sync_returned_aliceQuiet :
    aliceQuiet.Reachable ∧ aliceQuiet.syncPc = .returned ∧ aliceQuiet.mainPc = .cancelled ∧
      Relation.ReflTransGen Step aliceQuiet aliceQuietReturn ∧ aliceQuietReturn.AfterShutdown ∧
      aliceQuietReturn.adv = some (aliceSyncedAdv.shutdown aliceSyncedAdv.servers.entries) ∧
      aliceSyncedAdv.created = 1 ∧
      ((aliceSyncedAdv.shutdown aliceSyncedAdv.servers.entries).servers = ∅ ∧
        ∀ i < (aliceSyncedAdv.shutdown aliceSyncedAdv.servers.entries).created,
          i ∈ (aliceSyncedAdv.shutdown aliceSyncedAdv.servers.entries).shutDown) :=
  have hr : aliceQuiet.Reachable :=
    ((reachable_aliceTicked.tail (.sync (by decide) rfl rfl .nil _)).tail (.signal rfl)).tail
      (.stop (by decide) rfl (by decide))
  have h : Relation.ReflTransGen Step aliceQuiet aliceQuietReturn :=
    (Relation.ReflTransGen.single (.shutdown rfl rfl (.refl _))).tail (.finish rfl)
  ⟨hr, rfl, rfl, h, .inr rfl, rfl, by decide, shutdown_after_sync_returned hr rfl rfl h (.inr rfl) rfl⟩

theorem live_hostname_unrouted (hr : m.Reachable) (ha : m.adv = some a)
    (hs : a.servers.lookup s = some srv) :
    srv.registration.instanceName = s ∧ srv.registration.host = m.cfg.domainFor s ∧
      (':' ∉ m.cfg.username.data → ∀ b, m.registry.lookup s = some b →
        ∀ meth url, m.router.serveHTTP ⟨meth, srv.registration.host, url⟩ = .proxy b []) ∧
      srv.registration.hostName = m.cfg.domainFor s ++ ".local." ∧
      ∀ name ∈ [srv.registration.hostName, m.cfg.domainFor s ++ ".local"], ∀ host,
        (host = name ∨ ∃ port : String, ':' ∉ port.data ∧ host = name ++ ":" ++ port) →
          ∀ meth url, m.router.serveHTTP ⟨meth, host, url⟩ = m.router.serveHTTP ⟨meth, "", url⟩ := by
  have hi := hr.inv
  have ⟨har, hcfg⟩ := hi.adv ha
  have hslug := hi.slugs ha hs
  obtain ⟨hname, hhost, -⟩ := har.registered hs
  have hpub := har.registered.hostName hslug hs
  rw [hcfg] at hhost hpub
  refine ⟨hname, hhost, fun hcolon b hb meth url =>
    hhost ▸ Router.serveHTTP_domainFor hslug hcolon hb meth url, hpub, ?_⟩
  rw [hpub]
  exact fun name hn host hh => Router.serveHTTP_published_hostName hi.registry hslug hn hh

def aliceSynced : Main :=
  ⟨aliceRouter.cfg, aliceRouter.registry, some aliceSyncedAdv, .select, .serving, 0⟩

theorem live_hostname_unrouted_aliceSynced :
    aliceSynced.Reachable ∧ aliceSynced.adv = some aliceSyncedAdv ∧
      aliceSyncedAdv.servers.lookup "proj" = some projServer ∧
      (projServer.registration.instanceName = "proj" ∧
        projServer.registration.host = aliceSynced.cfg.domainFor "proj" ∧
        (':' ∉ aliceSynced.cfg.username.data → ∀ b, aliceSynced.registry.lookup "proj" = some b →
          ∀ meth url, aliceSynced.router.serveHTTP ⟨meth, projServer.registration.host, url⟩ = .proxy b []) ∧
        projServer.registration.hostName = aliceSynced.cfg.domainFor "proj" ++ ".local." ∧
        ∀ name ∈ [projServer.registration.hostName, aliceSynced.cfg.domainFor "proj" ++ ".local"], ∀ host,
          (host = name ∨ ∃ port : String, ':' ∉ port.data ∧ host = name ++ ":" ++ port) →
            ∀ meth url, aliceSynced.router.serveHTTP ⟨meth, host, url⟩ =
              aliceSynced.router.serveHTTP ⟨meth, "", url⟩) :=
  have hr : aliceSynced.Reachable := reachable_aliceTicked.tail (.sync (by decide) rfl rfl .nil _)
  have hs : aliceSyncedAdv.servers.lookup "proj" = some projServer := by decide
  ⟨hr, rfl, hs, live_hostname_unrouted hr rfl hs⟩

end Main
