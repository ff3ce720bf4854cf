import OpenCodeRouter.Launcher.Launch

namespace Launcher

variable {env : Env} {l l' : Launcher} {res : Except String Unit}

structure Assigned (l : Launcher) (env : Env) (ps : List ManagedProcess) (nextPort : Int) : Prop where
  sorted : ps.Pairwise (·.port < ·.port)
  mem : ∀ m ∈ ps, l.portStart ≤ m.port ∧ m.port < nextPort ∧ env.inUse m.freeAt = false
  nth : ∀ i (h : i < ps.length), ps[i].port ≤ l.portEnd + i
  start_le : l.portStart ≤ nextPort
  next_le : nextPort ≤ l.portEnd + ps.length

theorem Assigned.retry {ps : List ManagedProcess} {nextPort q : Int} {calls calls' : Nat}
    (ha : Assigned l env ps nextPort) (hb : l.portEnd + ps.length < 2 ^ 63 - 1)
    (hq : findFree l.portEnd env.inUse (l.portEnd - nextPort).toNat nextPort calls = some (q, calls')) :
    Assigned l env ps q := by
  have := ha.next_le
  obtain ⟨h₁, -, -, h₄⟩ := findFree_eq_some (by omega) (by omega) hq
  exact { ha with
    mem := fun m hm => have := ha.mem m hm; ⟨this.1, by omega, this.2.2⟩
    start_le := by have := ha.start_le; omega
    next_le := if h : nextPort < q then by have := h₄ h; omega else by omega }

theorem Assigned.started {ps : List ManagedProcess} {nextPort q : Int} {calls calls' : Nat}
    (ha : Assigned l env ps nextPort) (hb : l.portEnd + ps.length < 2 ^ 63 - 1)
    (hq : findFree l.portEnd env.inUse (l.portEnd - nextPort).toNat nextPort calls = some (q, calls'))
    (path : String) : Assigned l env (ps ++ [⟨path, q, calls' - 1⟩]) (incInt q) := by
  have hr := ha.retry hb hq
  have hs := hr.start_le
  have hn := hr.next_le
  obtain ⟨h₁, h₂, -, h₄⟩ := findFree_eq_some (by omega) (by have := ha.next_le; omega) hq
  rw [incInt_of_lt (by omega)]
  refine ⟨?_, ?_, ?_, by omega, ?_⟩
  · refine List.pairwise_append.mpr ⟨ha.sorted, List.pairwise_singleton _ _, ?_⟩
    intro m hm m' hm'
    rw [List.mem_singleton.mp hm']
    exact (hr.mem m hm).2.1
  · intro m hm
    rcases List.mem_append.mp hm with hm | hm
    · have := hr.mem m hm; exact ⟨this.1, by omega, this.2.2⟩
    · rw [List.mem_singleton.mp hm]; exact ⟨hs, Int.lt_succ q, h₂⟩
  · intro i hi
    simp only [List.length_append, List.length_singleton] at hi
    rcases Nat.lt_succ_iff_lt_or_eq.mp hi with hi | rfl
    · rw [List.getElem_append_left hi]; exact ha.nth i hi
    · rw [List.getElem_append_right (Nat.le_refl _)]; simpa using hn
  · simp only [List.length_append, List.length_singleton]
    omega

theorem launchFrom_assigned {dirs : List String} {nextPort : Int} {calls starts : Nat}
    {ps : List ManagedProcess} (hl : l'.portStart = l.portStart ∧ l'.portEnd = l.portEnd)
    (hp : l'.procs = l.procs ++ ps) (ha : Assigned l env ps nextPort)
    (hb : l.portEnd + ps.length + dirs.length < 2 ^ 63) :
    ∃ ps' n, (launchFrom env l' dirs nextPort calls starts).1.procs = l.procs ++ ps' ∧
      Assigned l env ps' n ∧
      ∀ e, (launchFrom env l' dirs nextPort calls starts).2 = .error e → e = l.noFreePorts := by
  induction dirs generalizing l' nextPort calls starts ps with
  | nil => exact ⟨ps, nextPort, hp, ha, fun _ h => by cases h⟩
  | cons dir dirs ih =>
    obtain ⟨hb', hdirs⟩ :
        l.portEnd + ps.length < 2 ^ 63 - 1 ∧ l.portEnd + ps.length + dirs.length < 2 ^ 63 := by
      simp only [List.length_cons] at hb; omega
    unfold launchFrom
    split
    · exact ih hl hp ha hdirs
    · split
      · exact ih hl hp ha hdirs
      · rw [hl.2]
        split
        · next hq =>
          refine ⟨ps, nextPort, hp, ha, fun e he => ?_⟩
          cases he
          simp [noFreePorts, hl.1, hl.2]
        · next q calls' hq =>
          split
          · exact ih hl hp (ha.retry hb' hq) hdirs
          · exact ih ⟨hl.1, rfl⟩ (by rw [hp, List.append_assoc]) (ha.started hb' hq _)
              (by simp only [List.length_append, List.length_cons, List.length_nil] at hb ⊢; omega)

theorem launch_assigns_increasing_ports (hr : l.portStart ≤ l.portEnd) (env : Env)
    (paths : List String) (hend : l.portEnd + paths.length < 2 ^ 63) :
    ∃ ps, (l.launch env paths).1.procs = l.procs ++ ps ∧ ps.Pairwise (·.port < ·.port) ∧
      (∀ m ∈ ps, l.portStart ≤ m.port ∧ env.inUse m.freeAt = false) ∧
      (∀ i (h : i < ps.length), ps[i].port ≤ l.portEnd + i) ∧
      ∀ e, (l.launch env paths).2 = .error e → e = l.noFreePorts := by
  have ha : Assigned l env [] l.portStart :=
    ⟨.nil, by simp, by simp, Int.le_refl _, by simpa using hr⟩
  obtain ⟨ps, n, hp, ha, he⟩ :=
    launchFrom_assigned ⟨rfl, rfl⟩ (List.append_nil _).symm ha (by simpa using hend)
  exact ⟨ps, hp, ha.sorted, fun m hm => ⟨(ha.mem m hm).1, (ha.mem m hm).2.2⟩, ha.nth, he⟩

def allFree : Env :=
  ⟨.ok, fun _ => true, fun _ => false, fun _ => .ok ()⟩

theorem launch_assigns_increasing_ports_allFree :
    (new 30000 31000).portStart ≤ (new 30000 31000).portEnd ∧
      (new 30000 31000).portEnd + ["/a", "/b"].length < 2 ^ 63 ∧
      ∃ ps, ((new 30000 31000).launch allFree ["/a", "/b"]).1.procs = (new 30000 31000).procs ++ ps ∧
        ps.Pairwise (·.port < ·.port) ∧
        (∀ m ∈ ps, (new 30000 31000).portStart ≤ m.port ∧ allFree.inUse m.freeAt = false) ∧
        (∀ i (h : i < ps.length), ps[i].port ≤ (new 30000 31000).portEnd + i) ∧
        ∀ e, ((new 30000 31000).launch allFree ["/a", "/b"]).2 = .error e →
          e = (new 30000 31000).noFreePorts :=
  have hr := by decide
  have hend := by decide
  ⟨hr, hend, launch_assigns_increasing_ports hr allFree ["/a", "/b"] hend⟩

theorem launch_starts_past_port_end :
    (new 30000 30000).launch allFree ["/a", "/b"] =
      (⟨30000, 30000, [⟨"/a", 30000, 0⟩, ⟨"/b", 30001, 1⟩]⟩, .ok ()) :=
  rfl

end Launcher
