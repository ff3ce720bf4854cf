import OpenCodeRouter.Registry.Slugify
import Mathlib.Data.List.AList
import Mathlib.Logic.Relation

abbrev Time := Int

abbrev Duration := Int

namespace Time

-- `t.Sub(u)` on monotonic readings saturates to the range of an `int64` `Duration`.
def sub (t u : Time) : Duration :=
  max (-2 ^ 63) (min (2 ^ 63 - 1) (t - u))

end Time

-- `n++` on a Go `int`: past `math.MaxInt64` it wraps to `math.MinInt64`.
def incInt (n : Int) : Int :=
  if n = 2 ^ 63 - 1 then -2 ^ 63 else n + 1

theorem incInt_of_lt {n : Int} (h : n < 2 ^ 63 - 1) : incInt n = n + 1 :=
  if_neg h.ne

structure Backend where
  port : Int
  projectName : String
  projectPath : String
  slug : String
  version : String
  lastSeen : Time
  deriving DecidableEq, Repr

structure Registry where
  backends : AList fun _ : String => Backend
  byPort : AList fun _ : Int => String
  staleAfter : Duration

abbrev Registry.Entry := Σ _ : String, Backend

def nilDereference : String :=
  "invalid memory address or nil pointer dereference"

namespace Registry

def new (staleAfter : Duration) : Registry :=
  ⟨∅, ∅, staleAfter⟩

def releasePort (r : Registry) (port : Int) (slug : String) : AList fun _ : String => Backend :=
  match r.byPort.lookup port with
  | some oldSlug => if oldSlug ≠ slug then r.backends.erase oldSlug else r.backends
  | none => r.backends

def updateExisting (r : Registry) (backends : AList fun _ : String => Backend) (slug : String)
    (existing : Backend) (now : Time) (port : Int) (projectName projectPath version : String) :
    Registry :=
  let byPort := if existing.port ≠ port then r.byPort.erase existing.port else r.byPort
  { r with
    backends := backends.insert slug
      { existing with port, projectName, projectPath, version, lastSeen := now }
    byPort := byPort.insert port slug }

def insertNew (r : Registry) (backends : AList fun _ : String => Backend) (slug : String)
    (now : Time) (port : Int) (projectName projectPath version : String) : Registry :=
  { r with
    backends := backends.insert slug ⟨port, projectName, projectPath, slug, version, now⟩
    byPort := r.byPort.insert port slug }

def upsert (r : Registry) (now : Time) (port : Int) (projectName projectPath version : String) :
    Registry × Bool :=
  let slug := slugify projectPath
  let backends := r.releasePort port slug
  match backends.lookup slug with
  | some existing =>
    if existing.projectPath = projectPath ∨ existing.port = port then
      -- Same project or same port: update in place.
      (r.updateExisting backends slug existing now port projectName projectPath version, false)
    else
      -- Slug collision: disambiguate by appending the port number.
      (r.insertNew backends (slug ++ "-" ++ toString port) now port projectName projectPath version,
        true)
  | none => (r.insertNew backends slug now port projectName projectPath version, true)

def drop (r : Registry) (slug : String) (b : Backend) : Registry :=
  { r with backends := r.backends.erase slug, byPort := r.byPort.erase b.port }

-- `Prune` reads the clock once per backend (`time.Since(b.LastSeen)`): `clock e` is the reading taken
-- when its loop reaches `e`, and `entries` is the order of the `range`, any permutation of the map.
def pruneEntry (clock : Entry → Time) (acc : Registry × List String) (e : Entry) :
    Registry × List String :=
  if acc.1.staleAfter < Time.sub (clock e) e.2.lastSeen then
    (acc.1.drop e.1 e.2, acc.2 ++ [e.1])
  else acc

def prune (r : Registry) (clock : Entry → Time) (entries : List Entry) : Registry × List String :=
  entries.foldl (pruneEntry clock) (r, [])

def lookup (r : Registry) (slug : String) : Option Backend :=
  r.backends.lookup slug

-- A port entry whose slug has no backend makes Go dereference nil.
def lookupByPort (r : Registry) (port : Int) : Except String (Option Backend) :=
  match r.byPort.lookup port with
  | none => .ok none
  | some slug =>
    match r.backends.lookup slug with
    | some b => .ok (some b)
    | none => .error nilDereference

def lookupByPath (r : Registry) (entries : List Entry) (projectPath : String) : Option Backend :=
  match entries.find? (·.2.projectPath == projectPath) with
  | some e => some e.2
  | none => r.backends.lookup (slugify projectPath)

def all (entries : List Entry) : List Backend :=
  entries.map (·.2)

def slugs (r : Registry) : List String :=
  r.backends.keys

def len (r : Registry) : Nat :=
  r.backends.keys.length

section Lemmas

variable {r : Registry} {port : Int} {slug s : String} {b e : Backend} {now : Time}
  {projectName projectPath version : String} {backends : AList fun _ : String => Backend}

@[simp] theorem lookup_releasePort :
    (r.releasePort port slug).lookup s =
      if r.byPort.lookup port = some s ∧ s ≠ slug then none else r.backends.lookup s := by
  unfold releasePort
  split
  · next old h =>
    by_cases hs : s = old
    · subst hs; by_cases hne : s = slug <;> simp [hne, AList.lookup_erase, h]
    · split <;> simp [h, Ne.symm hs, AList.lookup_erase_ne hs]
  · simp_all

theorem lookup_of_lookup_releasePort (h : (r.releasePort port slug).lookup s = some b) :
    r.backends.lookup s = some b ∧ (r.byPort.lookup port = some s → s = slug) := by
  rw [lookup_releasePort] at h
  split at h
  · contradiction
  · next hn => exact ⟨h, fun hp => by_contra fun hs => hn ⟨hp, hs⟩⟩

theorem lookupByPort_of_lookup (hp : r.byPort.lookup port = some s)
    (hs : r.backends.lookup s = some b) : r.lookupByPort port = .ok (some b) := by
  simp [lookupByPort, hp, hs]

@[simp] theorem updateExisting_staleAfter :
    (r.updateExisting backends slug e now port projectName projectPath version).staleAfter =
      r.staleAfter := rfl

@[simp] theorem insertNew_staleAfter :
    (r.insertNew backends slug now port projectName projectPath version).staleAfter =
      r.staleAfter := rfl

@[simp] theorem drop_staleAfter : (r.drop s b).staleAfter = r.staleAfter := rfl

@[simp] theorem lookup_drop {s' : String} :
    (r.drop s b).backends.lookup s' = if s' = s then none else r.backends.lookup s' := by
  split
  · subst_vars; exact AList.lookup_erase _ _
  · exact AList.lookup_erase_ne ‹_›

@[simp] theorem byPort_lookup_drop {p : Int} :
    (r.drop s b).byPort.lookup p = if p = b.port then none else r.byPort.lookup p := by
  split
  · subst_vars; exact AList.lookup_erase _ _
  · exact AList.lookup_erase_ne ‹_›

@[simp] theorem lookup_updateExisting :
    (r.updateExisting backends slug e now port projectName projectPath version).backends.lookup s =
      if s = slug then some { e with port, projectName, projectPath, version, lastSeen := now }
      else backends.lookup s := by
  split
  · subst_vars; exact AList.lookup_insert _
  · exact AList.lookup_insert_ne ‹_›

@[simp] theorem byPort_lookup_updateExisting {p : Int} :
    (r.updateExisting backends slug e now port projectName projectPath version).byPort.lookup p =
      if p = port then some slug else if p = e.port then none else r.byPort.lookup p := by
  unfold updateExisting
  by_cases hp : p = port
  · subst hp; simp [AList.lookup_insert]
  · rw [AList.lookup_insert_ne hp, if_neg hp]
    by_cases he : p = e.port
    · subst he; simp [hp, AList.lookup_erase]
    · split <;> simp [he, AList.lookup_erase_ne he]

@[simp] theorem lookup_insertNew :
    (r.insertNew backends slug now port projectName projectPath version).backends.lookup s =
      if s = slug then some ⟨port, projectName, projectPath, slug, version, now⟩
      else backends.lookup s := by
  split
  · subst_vars; exact AList.lookup_insert _
  · exact AList.lookup_insert_ne ‹_›

@[simp] theorem byPort_lookup_insertNew {p : Int} :
    (r.insertNew backends slug now port projectName projectPath version).byPort.lookup p =
      if p = port then some slug else r.byPort.lookup p := by
  split
  · subst_vars; exact AList.lookup_insert _
  · exact AList.lookup_insert_ne ‹_›

@[simp] theorem upsert_staleAfter :
    (r.upsert now port projectName projectPath version).1.staleAfter = r.staleAfter := by
  dsimp only [upsert]; split <;> (try split) <;> rfl

theorem upsert_cases (r : Registry) (now : Time) (port : Int)
    (projectName projectPath version : String) :
    let slug := slugify projectPath
    let backends := r.releasePort port slug
    (∃ e, backends.lookup slug = some e ∧ (e.projectPath = projectPath ∨ e.port = port) ∧
      r.upsert now port projectName projectPath version =
        (r.updateExisting backends slug e now port projectName projectPath version, false)) ∨
    ∃ key, (backends.lookup slug = none ∧ key = slug ∨
        ∃ e, backends.lookup slug = some e ∧ ¬(e.projectPath = projectPath ∨ e.port = port) ∧
          key = slug ++ "-" ++ toString port) ∧
      r.upsert now port projectName projectPath version =
        (r.insertNew backends key now port projectName projectPath version, true) := by
  dsimp only [upsert]
  split
  · next e he =>
    split
    · exact .inl ⟨e, he, ‹_›, rfl⟩
    · exact .inr ⟨_, .inr ⟨e, he, ‹_›, rfl⟩, rfl⟩
  · exact .inr ⟨_, .inl ⟨‹_›, rfl⟩, rfl⟩

end Lemmas

inductive Step : Registry → Registry → Prop
  | upsert (r : Registry) (now : Time) (port : Int) (projectName projectPath version : String) :
      Step r (r.upsert now port projectName projectPath version).1
  | prune (r : Registry) (clock : Entry → Time) (entries : List Entry)
      (h : entries.Perm r.backends.entries) :
      Step r (r.prune clock entries).1

def Reachable (r : Registry) : Prop :=
  Relation.ReflTransGen Step (new r.staleAfter) r

@[simp] theorem pruneEntry_staleAfter {clock : Entry → Time} (acc : Registry × List String)
    (e : Entry) : (pruneEntry clock acc e).1.staleAfter = acc.1.staleAfter := by
  unfold pruneEntry; split <;> rfl

@[simp] theorem prune_staleAfter {r : Registry} {clock : Entry → Time} {entries : List Entry} :
    (r.prune clock entries).1.staleAfter = r.staleAfter := by
  suffices ∀ acc : Registry × List String,
      (entries.foldl (pruneEntry clock) acc).1.staleAfter = acc.1.staleAfter from this _
  induction entries with
  | nil => intro; rfl
  | cons e es ih => intro acc; rw [List.foldl_cons, ih, pruneEntry_staleAfter]

theorem Step.staleAfter_eq {r r' : Registry} : Step r r' → r'.staleAfter = r.staleAfter
  | .upsert .. | .prune .. => by simp

theorem Reachable.induction {P : Registry → Prop} (new : ∀ d, P (new d))
    (step : ∀ r r', Step r r' → P r → P r') {r : Registry} (hr : r.Reachable) : P r := by
  obtain ⟨d, hd⟩ : ∃ d, Relation.ReflTransGen Step (Registry.new d) r := ⟨_, hr⟩
  clear hr
  induction hd with
  | refl => exact new _
  | tail _ hs ih => exact step _ _ hs ih

theorem Reachable.step {r r' : Registry} (hr : r.Reachable) (hs : Step r r') : r'.Reachable := by
  unfold Reachable at *
  rw [hs.staleAfter_eq]
  exact hr.tail hs

theorem Reachable.upsert {r : Registry} (hr : r.Reachable) (now : Time) (port : Int)
    (projectName projectPath version : String) :
    (r.upsert now port projectName projectPath version).1.Reachable :=
  hr.step (.upsert ..)

theorem reachable_new (d : Duration) : (new d).Reachable :=
  .refl

end Registry
