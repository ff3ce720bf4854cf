import OpenCodeRouter.Registry.Basic

namespace Registry

variable {r : Registry} {clock : Entry → Time} {e : Entry} {es : List Entry} {acc : Registry × List String}

structure Pending (es : List Entry) (acc : Registry × List String) : Prop where
  nodup : (es.map Sigma.fst).Nodup
  stored : ∀ e ∈ es, acc.1.backends.lookup e.1 = some e.2

theorem lookup_pruneEntry (acc : Registry × List String) (e : Entry) (s : String) :
    (pruneEntry clock acc e).1.backends.lookup s =
      if s = e.1 ∧ acc.1.staleAfter < Time.sub (clock e) e.2.lastSeen then none
      else acc.1.backends.lookup s := by
  unfold pruneEntry
  split <;> simp [*]

namespace Pending

theorem start {entries : List Entry} (h : entries.Perm r.backends.entries) : Pending entries (r, []) :=
  ⟨(h.map _).nodup_iff.mpr r.backends.keys_nodup, fun _ he => AList.mem_lookup_iff.mpr (h.subset he)⟩

theorem not_mem (hp : Pending (e :: es) acc) : e.1 ∉ es.map Sigma.fst :=
  (List.nodup_cons.mp hp.nodup).1

theorem tail (hp : Pending (e :: es) acc) : Pending es (pruneEntry clock acc e) where
  nodup := (List.nodup_cons.mp hp.nodup).2
  stored e' he' := by
    have hne : e'.1 ≠ e.1 := fun h => hp.not_mem (h ▸ List.mem_map_of_mem _ he')
    rw [lookup_pruneEntry, if_neg fun h => hne h.1]
    exact hp.stored e' (.tail _ he')

end Pending

theorem prune_induction (P : Registry → Prop)
    (drop : ∀ r s b, P r → r.backends.lookup s = some b → P (r.drop s b)) (hr : P r)
    {entries : List Entry} (h : entries.Perm r.backends.entries) : P (r.prune clock entries).1 := by
  suffices ∀ es acc, Pending es acc → P acc.1 → P (es.foldl (pruneEntry clock) acc).1 from
    this _ _ (.start h) hr
  intro es
  induction es with
  | nil => intro _ _ h; exact h
  | cons e es ih =>
    intro acc hp hP
    refine ih _ hp.tail ?_
    unfold pruneEntry
    split
    · exact drop _ _ _ hP (hp.stored e (.head _))
    · exact hP

theorem foldl_pruneEntry_removed (clock : Entry → Time) :
    ∀ (es : List Entry) (acc : Registry × List String), (es.foldl (pruneEntry clock) acc).2 =
      acc.2 ++ (es.filter fun e => acc.1.staleAfter < Time.sub (clock e) e.2.lastSeen).map (·.1)
  | [], acc => by simp
  | e :: es, acc => by
    rw [List.foldl_cons, foldl_pruneEntry_removed clock es, List.filter_cons, pruneEntry]
    split <;> simp [*]

theorem foldl_pruneEntry_lookup (clock : Entry → Time) :
    ∀ (es : List Entry) (acc : Registry × List String), Pending es acc → ∀ s,
      (es.foldl (pruneEntry clock) acc).1.backends.lookup s =
        if s ∈ es.map Sigma.fst then
          (acc.1.backends.lookup s).filter fun b => Time.sub (clock ⟨s, b⟩) b.lastSeen ≤ acc.1.staleAfter
        else acc.1.backends.lookup s
  | [], acc, _, s => by simp
  | ⟨k, b⟩ :: es, acc, hp, s => by
    rw [List.foldl_cons, foldl_pruneEntry_lookup clock es _ hp.tail s, pruneEntry_staleAfter,
      lookup_pruneEntry]
    by_cases hs : s = k
    · subst hs
      by_cases hst : acc.1.staleAfter < Time.sub (clock ⟨s, b⟩) b.lastSeen <;>
        simp [hp.not_mem, hp.stored _ (.head _), hst, Option.filter, not_le.mpr, le_of_not_lt]
    · simp only [List.map_cons, List.mem_cons, hs, false_or, false_and, if_false]

theorem byPort_lookup_pruneEntry (acc : Registry × List String) (e : Entry) (p : Int) :
    (pruneEntry clock acc e).1.byPort.lookup p =
      if acc.1.staleAfter < Time.sub (clock e) e.2.lastSeen ∧ e.2.port = p then none
      else acc.1.byPort.lookup p := by
  unfold pruneEntry
  by_cases hs : acc.1.staleAfter < Time.sub (clock e) e.2.lastSeen <;> simp [hs, eq_comm]

theorem foldl_pruneEntry_byPort (clock : Entry → Time) (p : Int) :
    ∀ (es : List Entry) (acc : Registry × List String), (es.foldl (pruneEntry clock) acc).1.byPort.lookup p =
      if ∃ e ∈ es, acc.1.staleAfter < Time.sub (clock e) e.2.lastSeen ∧ e.2.port = p then none
      else acc.1.byPort.lookup p
  | [], acc => by simp
  | e :: es, acc => by
    rw [List.foldl_cons, foldl_pruneEntry_byPort clock p es, pruneEntry_staleAfter,
      byPort_lookup_pruneEntry]
    by_cases h : acc.1.staleAfter < Time.sub (clock e) e.2.lastSeen ∧ e.2.port = p
    · simp [h]
    · simp only [List.mem_cons, exists_eq_or_imp, h, false_or, if_false]

theorem mem_entries_iff {entries : List Entry} (h : entries.Perm r.backends.entries) :
    e ∈ entries ↔ r.backends.lookup e.1 = some e.2 :=
  h.mem_iff.trans AList.mem_lookup_iff.symm

theorem prune_removes_exactly_stale (clock : Entry → Time) {entries : List Entry}
    (h : entries.Perm r.backends.entries) :
    (∀ s, (r.prune clock entries).1.lookup s =
      (r.lookup s).filter fun b => Time.sub (clock ⟨s, b⟩) b.lastSeen ≤ r.staleAfter) ∧
    (r.prune clock entries).2 =
      (entries.filter fun e => r.staleAfter < Time.sub (clock e) e.2.lastSeen).map (·.1) := by
  refine ⟨fun s => ?_, by simp [prune, foldl_pruneEntry_removed]⟩
  rw [lookup, prune, foldl_pruneEntry_lookup clock entries _ (.start h) s]
  split
  · rfl
  · next hs =>
    have : r.backends.lookup s = none :=
      AList.lookup_eq_none.mpr fun hm => hs ((h.map Sigma.fst).mem_iff.mpr hm)
    simp [lookup, this]

def twoProjects : Registry :=
  (((Registry.new 30000000000).upsert 0 30001 "a" "/x/a" "1").1.upsert
    40000000000 30002 "b" "/x/b" "1").1

example : (twoProjects.prune (fun _ => 50000000000) twoProjects.backends.entries).2 = ["a"] ∧
    (twoProjects.prune (fun _ => 50000000000) twoProjects.backends.entries).1.slugs = ["b"] := by
  decide

end Registry
