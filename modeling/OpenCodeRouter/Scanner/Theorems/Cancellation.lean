import OpenCodeRouter.Scanner.Theorems.Completion

namespace Scanner

variable {sc : Scanner} {r : Registry} {p p' : Pass}

def pending (p : Pass) : List Int :=
  p.probing ++ if p.pc = .send then [p.port] else []

theorem probed_step (hs : Step sc p p') : ∃ l, p'.probed = p.probed ++ l := by
  cases hs with
  | probe => exact ⟨_, rfl⟩
  | _ => exact ⟨[], (List.append_nil _).symm⟩

theorem pending_step (hc : p.cancelled = true) (hs : Step sc p p') :
    p'.cancelled = true ∧ (p'.probed ++ pending p').Perm (p.probed ++ pending p) := by
  cases hs with
  | check _ _ h | cancel h => rw [hc] at h; cases h
  | stop h | exit h | wait h => simp [pending, h, hc]
  | send h => simp [pending, h, hc]
  | probe hq =>
    refine ⟨hc, ?_⟩
    simp only [pending, List.append_assoc, List.singleton_append]
    exact ((List.perm_cons_erase hq).append_right _).symm.append_left _
  | unlock | finish => simp [pending, hc]

theorem pending_run (hc : p.cancelled = true) (h : Relation.ReflTransGen (Step sc) p p') :
    p'.cancelled = true ∧ ∃ l, p'.probed = p.probed ++ l ∧ (l ++ pending p').Perm (pending p) := by
  induction h with
  | refl => exact ⟨hc, [], (List.append_nil _).symm, .refl _⟩
  | @tail q q' _ hs ih =>
    obtain ⟨hc', l, hl, hperm⟩ := ih
    obtain ⟨l', hl'⟩ := probed_step hs
    obtain ⟨hc'', hstep⟩ := pending_step hc' hs
    have h' : (l' ++ pending q').Perm (pending q) := by
      rw [hl', hl] at hstep
      simpa only [List.append_assoc, List.perm_append_left_iff] using hstep
    refine ⟨hc'', l ++ l', by rw [hl', hl, List.append_assoc], ?_⟩
    rw [List.append_assoc]
    exact (h'.append_left l).trans hperm

theorem cancelled_pass_probes_only_pending (hc0 : 0 ≤ sc.concurrency) (hp : Reachable sc r p)
    (hc : p.cancelled = true) (h : Relation.ReflTransGen (Step sc) p p') :
    ∃ l, p'.probed = p.probed ++ l ∧ l.Subperm (pending p) ∧ (l.length : Int) ≤ sc.concurrency + 1 := by
  obtain ⟨-, l, hl, hperm⟩ := pending_run hc h
  have hsub : l.Subperm (pending p) := (List.sublist_append_left l _).subperm.trans hperm.subperm
  have hi := hp.slots hc0
  have hlen : (pending p).length ≤ p.probing.length + 1 := by
    unfold pending; split <;> simp
  have := hsub.length_le
  have := hi.sem_eq
  have := hi.sem_le
  exact ⟨l, hl, hsub, by omega⟩

def twoPorts : Scanner :=
  ⟨30000, 30001, 1⟩

def cancelledPass : Pass :=
  ⟨Registry.new 30000000000, true, .loop, 30001, 1, 1, [30000], [], [], []⟩

def cancelledProbed : Pass :=
  ⟨Registry.new 30000000000, true, .loop, 30001, 1, 1, [], [30000], [], [30000]⟩

theorem cancelled_pass_probes_only_pending_twoPorts :
    0 ≤ twoPorts.concurrency ∧ Reachable twoPorts (Registry.new 30000000000) cancelledPass ∧
      cancelledPass.cancelled = true ∧ Relation.ReflTransGen (Step twoPorts) cancelledPass cancelledProbed ∧
      ∃ l, cancelledProbed.probed = cancelledPass.probed ++ l ∧ l.Subperm (pending cancelledPass) ∧
        (l.length : Int) ≤ twoPorts.concurrency + 1 :=
  have hp : Reachable twoPorts (Registry.new 30000000000) cancelledPass :=
    ⟨false, ((Relation.ReflTransGen.single (.check rfl (by decide) rfl)).tail
      (.send rfl (by decide))).tail (.cancel rfl)⟩
  have h : Relation.ReflTransGen (Step twoPorts) cancelledPass cancelledProbed :=
    .single (@Step.probe _ _ 30000 (by decide) 0 (.error "") (.error ""))
  ⟨by decide, hp, rfl, h, cancelled_pass_probes_only_pending (by decide) hp rfl h⟩

end Scanner
