import OpenCodeRouter.Config

structure Registration where
  instanceName : String
  service : String
  domain : String
  port : Int
  host : String
  ips : List String
  txt : List String
  deriving DecidableEq, Repr

-- `strings.Trim(s, ".")`, as zeroconf's `trimDot`.
def trimDot (s : List Char) : List Char :=
  ((s.dropWhile (· = '.')).reverse.dropWhile (· = '.')).reverse

theorem dropWhile_dot_of_head {s : List Char} (h : s.head? ≠ some '.') : s.dropWhile (· = '.') = s := by
  cases s with
  | nil => rfl
  | cons c s => exact List.dropWhile_cons_of_neg (by simpa using h)

theorem trimDot_of_ne {s : List Char} (hh : s.head? ≠ some '.') (hl : s.getLast? ≠ some '.') :
    trimDot s = s := by
  rw [trimDot, dropWhile_dot_of_head hh, dropWhile_dot_of_head (by rwa [List.head?_reverse]),
    List.reverse_reverse]

namespace Registration

-- `RegisterProxy` publishes `host` as the record's `HostName` only when it already ends in the
-- domain; otherwise it publishes `trimDot(host) + "." + trimDot(domain) + "."`. The default for an
-- empty domain is left out: `register` always passes `"local."`.
def hostName (r : Registration) : String :=
  if r.domain.data.isSuffixOf (trimDot r.host.data) then r.host
  else ⟨trimDot r.host.data ++ '.' :: trimDot r.domain.data ++ ['.']⟩

theorem hostName_domainFor {r : Registration} {cfg : Config} {s : String} (hd : r.domain = "local.")
    (hh : r.host = cfg.domainFor s) (hs : IsSlug s) : r.hostName = cfg.domainFor s ++ ".local." := by
  have ht : trimDot (cfg.domainFor s).data = (cfg.domainFor s).data := by
    rw [Config.domainFor_data]
    refine trimDot_of_ne ?_ (by rw [List.getLast?_append_of_ne_nil _ (by decide)]; decide)
    cases h : s.data with
    | nil => simp
    | cons c _ =>
      simpa using fun hc : c = '.' => hs.dot_not_mem (h ▸ hc ▸ List.mem_cons_self _ _)
  rw [hostName, hd, hh, ht, if_neg (by simp [Config.domainFor_data, List.isSuffixOf])]
  have hl : trimDot "local.".data = "local".data := by decide
  exact String.ext (by simp only [String.data_append, ht, hl]; simp)

end Registration

structure Server where
  id : Nat
  registration : Registration
  deriving DecidableEq, Repr

structure Advertiser where
  cfg : Config
  outboundIP : String
  servers : AList fun _ : String => Server
  created : Nat
  shutDown : List Nat

abbrev Outcomes := Nat → Except String Unit

namespace Advertiser

abbrev Entry := Σ _ : String, Server

def new (cfg : Config) (outboundIP : String) : Advertiser :=
  ⟨cfg, outboundIP, ∅, 0, []⟩

def txt (cfg : Config) (b : Backend) : List String :=
  ["project=" ++ b.projectName, "path=" ++ b.projectPath, "backend=127.0.0.1:" ++ toString b.port,
    "owner=" ++ cfg.username] ++ if b.version ≠ "" then ["version=" ++ b.version] else []

def registration (cfg : Config) (outboundIP : String) (b : Backend) : Registration :=
  ⟨b.slug, cfg.mdnsServiceType, "local.", cfg.listenPort, cfg.domainFor b.slug, [outboundIP],
    txt cfg b⟩

def register (a : Advertiser) (b : Backend) (outcome : Except String Unit) :
    Except String Advertiser :=
  match outcome with
  | .error e => .error ("zeroconf.RegisterProxy: " ++ e)
  | .ok () =>
    .ok { a with
      servers := a.servers.insert b.slug ⟨a.created, registration a.cfg a.outboundIP b⟩
      created := a.created + 1 }

def addNew : Advertiser → List Backend → Outcomes → Advertiser
  | a, [], _ => a
  | a, b :: bs, outcomes =>
    if b.slug ∈ a.servers then addNew a bs outcomes
    else
      match a.register b (outcomes 0) with
      | .ok a' => addNew a' bs fun n => outcomes (n + 1)
      | .error _ => addNew a bs fun n => outcomes (n + 1)

def removeStale (currentSlugs : List String) (a : Advertiser) (e : Entry) : Advertiser :=
  if e.1 ∈ currentSlugs then a
  else { a with servers := a.servers.erase e.1, shutDown := a.shutDown ++ [e.2.id] }

def sync (a : Advertiser) (backends : List Backend) (entries : List Entry) (outcomes : Outcomes) :
    Advertiser :=
  let currentSlugs := backends.map (·.slug)
  addNew (entries.foldl (removeStale currentSlugs) a) backends outcomes

def attempts : Advertiser → List Backend → Outcomes → List (String × Except String Unit)
  | _, [], _ => []
  | a, b :: bs, outcomes =>
    if b.slug ∈ a.servers then attempts a bs outcomes
    else
      (b.slug, outcomes 0) ::
        match a.register b (outcomes 0) with
        | .ok a' => attempts a' bs fun n => outcomes (n + 1)
        | .error _ => attempts a bs fun n => outcomes (n + 1)

def syncAttempts (a : Advertiser) (backends : List Backend) (entries : List Entry)
    (outcomes : Outcomes) : List (String × Except String Unit) :=
  attempts (entries.foldl (removeStale (backends.map (·.slug))) a) backends outcomes

def shutdown (a : Advertiser) (entries : List Entry) : Advertiser :=
  { a with servers := ∅, shutDown := a.shutDown ++ entries.map (·.2.id) }

inductive Step : Advertiser → Advertiser → Prop
  | sync (a : Advertiser) (backends : List Backend) {entries : List Entry}
      (h : entries.Perm a.servers.entries) (outcomes : Outcomes) :
      Step a (a.sync backends entries outcomes)
  | shutdown (a : Advertiser) {entries : List Entry} (h : entries.Perm a.servers.entries) :
      Step a (a.shutdown entries)

def Reachable (a : Advertiser) : Prop :=
  Relation.ReflTransGen Step (new a.cfg a.outboundIP) a

section Lemmas

variable {a : Advertiser} {b : Backend} {outcome : Except String Unit}

theorem register_eq_ok (h : a.register b outcome = .ok a') :
    a' = { a with
      servers := a.servers.insert b.slug ⟨a.created, registration a.cfg a.outboundIP b⟩
      created := a.created + 1 } := by
  unfold register at h
  split at h <;> cases h
  rfl

theorem addNew_induction (P : Advertiser → Prop)
    (register : ∀ a a' b outcome, P a → b.slug ∉ a.servers → a.register b outcome = .ok a' → P a')
    {backends : List Backend} {outcomes : Outcomes} (ha : P a) : P (a.addNew backends outcomes) := by
  induction backends generalizing a outcomes with
  | nil => exact ha
  | cons b bs ih =>
    unfold addNew
    split
    · exact ih ha
    · next hb =>
      split
      · next h => exact ih (register _ _ _ _ ha hb h)
      · exact ih ha

theorem removeStale_induction (P : Advertiser → Prop)
    (remove : ∀ a s srv, P a → a.servers.lookup s = some srv →
      P { a with servers := a.servers.erase s, shutDown := a.shutDown ++ [srv.id] })
    {currentSlugs : List String} {entries : List Entry} (h : entries.Perm a.servers.entries)
    (ha : P a) : P (entries.foldl (removeStale currentSlugs) a) := by
  suffices ∀ (es : List Entry) (a : Advertiser), P a → (es.map Sigma.fst).Nodup →
      (∀ e ∈ es, a.servers.lookup e.1 = some e.2) → P (es.foldl (removeStale currentSlugs) a) from
    this entries a ha ((h.map _).nodup_iff.mpr a.servers.keys_nodup)
      fun e he => AList.mem_lookup_iff.mpr (h.subset he)
  intro es
  induction es with
  | nil => intro _ h _ _; exact h
  | cons e es ih =>
    intro a hp hnd hl
    rw [List.map_cons, List.nodup_cons] at hnd
    rw [List.foldl_cons, removeStale]
    split
    · exact ih _ hp hnd.2 fun e' he' => hl e' (.tail _ he')
    · refine ih _ (remove _ _ _ hp (hl e (.head _))) hnd.2 fun e' he' => ?_
      have hne : e'.1 ≠ e.1 := fun h => hnd.1 (h ▸ List.mem_map_of_mem _ he')
      exact (AList.lookup_erase_ne hne).trans (hl e' (.tail _ he'))

theorem Step.cfg_eq {a a' : Advertiser} (hs : Step a a') :
    a'.cfg = a.cfg ∧ a'.outboundIP = a.outboundIP := by
  cases hs with
  | shutdown => exact ⟨rfl, rfl⟩
  | sync _ h =>
    refine addNew_induction (fun a' => a'.cfg = a.cfg ∧ a'.outboundIP = a.outboundIP) ?_
      (removeStale_induction (fun a' => a'.cfg = a.cfg ∧ a'.outboundIP = a.outboundIP)
        (fun _ _ _ h _ => h) h ⟨rfl, rfl⟩)
    intro _ _ _ _ h _ hr
    rw [register_eq_ok hr]
    exact h

theorem Reachable.induction {P : Advertiser → Prop} (new : ∀ cfg ip, P (new cfg ip))
    (step : ∀ a a', Step a a' → P a → P a') {a : Advertiser} (hr : a.Reachable) : P a := by
  obtain ⟨cfg, ip, hd⟩ : ∃ cfg ip, Relation.ReflTransGen Step (Advertiser.new cfg ip) a := ⟨_, _, hr⟩
  clear hr
  induction hd with
  | refl => exact new _ _
  | tail _ hs ih => exact step _ _ hs ih

theorem Reachable.step {a a' : Advertiser} (hr : a.Reachable) (hs : Step a a') : a'.Reachable := by
  unfold Reachable at *
  rw [hs.cfg_eq.1, hs.cfg_eq.2]
  exact hr.tail hs

theorem reachable_new (cfg : Config) (outboundIP : String) : (new cfg outboundIP).Reachable :=
  .refl

end Lemmas

end Advertiser
