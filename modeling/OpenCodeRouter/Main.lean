import OpenCodeRouter.Discovery.Advertiser
import OpenCodeRouter.Proxy.Router

inductive SyncPc
  | select
  | syncing (backends : List Backend)
  | returned
  deriving DecidableEq, Repr

inductive MainPc
  | serving
  | cancelled
  | shutDown
  | returned
  | failed
  deriving DecidableEq, Repr

structure Main where
  cfg : Config
  registry : Registry
  adv : Option Advertiser
  syncPc : SyncPc
  mainPc : MainPc
  createdAtShutdown : Nat

namespace Main

def start (cfg : Config) (outboundIP : String) : Main :=
  if cfg.enableMDNS then
    ⟨cfg, Registry.new cfg.staleAfter, some (Advertiser.new cfg outboundIP), .select, .serving, 0⟩
  else ⟨cfg, Registry.new cfg.staleAfter, none, .returned, .serving, 0⟩

def router (m : Main) : Router :=
  ⟨m.registry, m.cfg⟩

def Running (m : Main) : Prop :=
  m.mainPc ≠ .returned ∧ m.mainPc ≠ .failed

instance : DecidablePred Running :=
  fun _ => inferInstanceAs (Decidable (_ ∧ _))

def AfterShutdown (m : Main) : Prop :=
  m.mainPc = .shutDown ∨ m.mainPc = .returned

instance : DecidablePred AfterShutdown :=
  fun _ => inferInstanceAs (Decidable (_ ∨ _))

inductive Step : Main → Main → Prop
  | scanner {m : Main} {r : Registry} (hm : m.Running) (h : Registry.Step m.registry r) :
      Step m { m with registry := r }
  | tick {m : Main} {a : Advertiser} (hm : m.Running) (ha : m.adv = some a)
      (hs : m.syncPc = .select) {entries : List Registry.Entry}
      (he : entries.Perm m.registry.backends.entries) :
      Step m { m with syncPc := .syncing (Registry.all entries) }
  | sync {m : Main} {a : Advertiser} {backends : List Backend} (hm : m.Running)
      (ha : m.adv = some a) (hs : m.syncPc = .syncing backends) {entries : List Advertiser.Entry}
      (he : entries.Perm a.servers.entries) (outcomes : Outcomes) :
      Step m { m with adv := some (a.sync backends entries outcomes), syncPc := .select }
  | stop {m : Main} (hm : m.Running) (hs : m.syncPc = .select) (hc : m.mainPc ≠ .serving) :
      Step m { m with syncPc := .returned }
  | signal {m : Main} (hm : m.mainPc = .serving) : Step m { m with mainPc := .cancelled }
  | shutdown {m : Main} {a : Advertiser} (hm : m.mainPc = .cancelled) (ha : m.adv = some a)
      {entries : List Advertiser.Entry} (he : entries.Perm a.servers.entries) :
      Step m { m with adv := some (a.shutdown entries), mainPc := .shutDown, createdAtShutdown := a.created }
  | skipShutdown {m : Main} (hm : m.mainPc = .cancelled) (ha : m.adv = none) :
      Step m { m with mainPc := .shutDown }
  | finish {m : Main} (hm : m.mainPc = .shutDown) : Step m { m with mainPc := .returned }
  | fail {m : Main} (hm : m.Running) : Step m { m with mainPc := .failed }

def Reachable (m : Main) : Prop :=
  ∃ cfg outboundIP, Relation.ReflTransGen Step (start cfg outboundIP) m

theorem reachable_start (cfg : Config) (outboundIP : String) : (start cfg outboundIP).Reachable :=
  ⟨cfg, outboundIP, .refl⟩

theorem Reachable.tail {m m' : Main} (hr : m.Reachable) (hs : Step m m') : m'.Reachable :=
  have ⟨cfg, ip, h⟩ := hr
  ⟨cfg, ip, h.tail hs⟩

theorem Reachable.trans {m m' : Main} (hr : m.Reachable) (h : Relation.ReflTransGen Step m m') :
    m'.Reachable :=
  have ⟨cfg, ip, h'⟩ := hr
  ⟨cfg, ip, h'.trans h⟩

theorem Reachable.induction {P : Main → Prop} (start : ∀ cfg ip, P (start cfg ip))
    (step : ∀ m m', m.Reachable → Step m m' → P m → P m') {m : Main} (hr : m.Reachable) : P m := by
  obtain ⟨cfg, ip, h⟩ := hr
  induction h with
  | refl => exact start cfg ip
  | tail h hs ih => exact step _ _ ⟨cfg, ip, h⟩ hs ih

end Main
