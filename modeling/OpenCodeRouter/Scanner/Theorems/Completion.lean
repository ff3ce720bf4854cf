import OpenCodeRouter.Scanner.Pass

namespace Scanner

variable {sc : Scanner} {r : Registry} {p p' : Pass}

-- `sem` counts the goroutines holding a slot and never exceeds the size of the semaphore.
structure Slots (sc : Scanner) (p : Pass) : Prop where
  sem_eq : p.sem = p.probing.length + p.unlocking.length
  sem_le : (p.sem : Int) ≤ sc.concurrency

theorem Slots.step (hi : Slots sc p) (hs : Step sc p p') : Slots sc p' := by
  cases hs with
  | send _ hs => exact ⟨by simp [hi.sem_eq]; omega, by simp only; push_cast; omega⟩
  | probe hq =>
    have := List.length_erase_of_mem hq
    have := List.length_pos_of_mem hq
    exact ⟨by simp [hi.sem_eq, *]; omega, hi.sem_le⟩
  | unlock hq =>
    have := List.length_erase_of_mem hq
    have := List.length_pos_of_mem hq
    have := hi.sem_le
    exact ⟨by simp [hi.sem_eq, *]; omega, by simp only; omega⟩
  | _ => exact ⟨hi.sem_eq, hi.sem_le⟩

theorem Reachable.slots (hc : 0 ≤ sc.concurrency) (hp : Reachable sc r p) : Slots sc p := by
  obtain ⟨cancelled, hp⟩ := hp
  induction hp with
  | refl => exact ⟨rfl, by simpa [Scanner.start] using hc⟩
  | tail _ hs ih => exact ih.step hs

-- The loop variable stays in the range, `wg` counts the goroutines and the one about to be
-- spawned, the ports spawned so far are those below the loop variable, each probed or still
-- probing, and a pass that pruned has no goroutine left.
structure Inv (sc : Scanner) (p : Pass) extends Slots sc p : Prop where
  pc_ne : p.pc ≠ .panicked
  port_ge : sc.portStart ≤ p.port
  port_le : p.port ≤ max sc.portStart (sc.portEnd + 1)
  send_le : p.pc = .send → p.port ≤ sc.portEnd
  exited : p.pc = .wait ∨ p.pc = .done → sc.portEnd < p.port
  wg_eq : p.wg = p.probing.length + p.unlocking.length + p.finishing.length +
    if p.pc = .send then 1 else 0
  spawned : (p.probed ++ p.probing).Perm (portRange sc.portStart p.port)
  done_idle : p.pc = .done → p.probing = [] ∧ p.unlocking = [] ∧ p.finishing = []

namespace Inv

theorem start (hc : 0 ≤ sc.concurrency) (cancelled : Bool) : Inv sc (start sc r cancelled) where
  sem_eq := rfl
  sem_le := by simpa [Scanner.start] using hc
  pc_ne := by simp [Scanner.start, not_lt.mpr hc]
  port_ge := le_rfl
  port_le := le_max_left _ _
  send_le := by simp [Scanner.start, not_lt.mpr hc]
  exited := by simp [Scanner.start, not_lt.mpr hc]
  wg_eq := by simp [Scanner.start, not_lt.mpr hc]
  spawned := by simp [Scanner.start, portRange]
  done_idle := by simp [Scanner.start, not_lt.mpr hc]

-- Below `math.MaxInt64` the loop variable never wraps.
theorem step (hend : sc.portEnd < 2 ^ 63 - 1) (hi : Inv sc p) (hs : Step sc p p') : Inv sc p' := by
  have hsl := hi.toSlots.step hs
  cases hs with
  | check h hp _ =>
    exact { hi with
      toSlots := hsl
      pc_ne := by simp
      send_le := fun _ => hp
      exited := by simp
      wg_eq := by simp [hi.wg_eq, h]
      done_idle := by simp }
  | stop h _ _ =>
    exact { hi with
      toSlots := hsl
      pc_ne := by simp
      send_le := by simp
      exited := by simp
      wg_eq := by simp [hi.wg_eq, h]
      done_idle := by simp }
  | exit h hp =>
    exact { hi with
      toSlots := hsl
      pc_ne := by simp
      send_le := by simp
      exited := fun _ => hp
      wg_eq := by simp [hi.wg_eq, h]
      done_idle := by simp }
  | send h hs =>
    have hp := hi.send_le h
    have hge := hi.port_ge
    have hinc : incInt p.port = p.port + 1 := incInt_of_lt (by omega)
    exact { hsl with
      pc_ne := by simp
      port_ge := by simp only [hinc]; omega
      port_le := by simp only [hinc]; omega
      send_le := by simp
      exited := by simp
      wg_eq := by simp [hi.wg_eq, h]; omega
      spawned := by
        simp only [hinc]
        rw [portRange_succ hge, ← List.append_assoc]
        exact hi.spawned.append_right _
      done_idle := by simp }
  | probe hq now health project =>
    have hl := List.length_erase_of_mem hq
    have hpos := List.length_pos_of_mem hq
    exact { hi with
      toSlots := hsl
      wg_eq := by simp [hi.wg_eq, hl]; omega
      spawned := by
        simp only
        refine List.Perm.trans ?_ hi.spawned
        rw [List.append_assoc, List.singleton_append]
        exact ((List.perm_cons_erase hq).symm).append_left _
      done_idle := fun hd => absurd hq (by simp [hi.done_idle hd]) }
  | unlock hq | finish hq =>
    have hl := List.length_erase_of_mem hq
    have hpos := List.length_pos_of_mem hq
    exact { hi with
      toSlots := hsl
      wg_eq := by simp [hi.wg_eq, hl]; omega
      done_idle := fun hd => absurd hq (by simp [hi.done_idle hd]) }
  | wait h hw clock he =>
    have hz := hi.wg_eq
    simp only [hw, h, reduceCtorEq, if_false] at hz
    exact { hi with
      toSlots := hsl
      pc_ne := by simp
      send_le := by simp
      exited := fun _ => hi.exited (.inl h)
      wg_eq := by simp [hw]; omega
      done_idle := fun _ => by simp only [← List.length_eq_zero]; omega }
  | cancel hc => exact { hi with toSlots := hsl }

end Inv

theorem Reachable.inv (hc : 0 ≤ sc.concurrency) (hend : sc.portEnd < 2 ^ 63 - 1)
    (hp : Reachable sc r p) : Inv sc p := by
  obtain ⟨cancelled, hp⟩ := hp
  induction hp with
  | refl => exact Inv.start hc cancelled
  | tail _ hs ih => exact ih.step hend hs

theorem Step.registry (hs : Step sc p p') : p'.registry = p.registry ∨ Registry.Step p.registry p'.registry := by
  cases hs with
  | probe _ now health project =>
    unfold Scanner.probe
    split
    exacts [.inr (.upsert ..), .inl rfl]
  | wait _ _ clock he => exact .inr (.prune _ clock _ he)
  | _ => exact .inl rfl

theorem Reachable.registry (hr : r.Reachable) (hp : Reachable sc r p) : p.registry.Reachable := by
  obtain ⟨cancelled, hp⟩ := hp
  induction hp with
  | refl => exact hr
  | tail _ hs ih => exact hs.registry.elim (· ▸ ih) ih.step

def Pc.weight : Pc → Nat
  | .loop => 3
  | .send => 2
  | .wait => 1
  | _ => 0

def budget (sc : Scanner) (p : Pass) : Nat :=
  5 * (sc.portEnd + 1 - p.port).toNat + 3 * p.probing.length + 2 * p.unlocking.length +
    p.finishing.length + p.pc.weight + if p.cancelled then 0 else 1

theorem budget_lt (hend : sc.portEnd < 2 ^ 63 - 1) (hi : Inv sc p) (hs : Step sc p p') :
    budget sc p' < budget sc p := by
  cases hs with
  | check h | stop h | exit h => simp [budget, h, Pc.weight]
  | send h =>
    have := hi.send_le h
    simp only [budget, h, Pc.weight, List.length_append, List.length_singleton,
      incInt_of_lt (show p.port < 2 ^ 63 - 1 by omega)]
    omega
  | probe hq | unlock hq | finish hq =>
    have := List.length_erase_of_mem hq
    have := List.length_pos_of_mem hq
    simp only [budget, List.length_append, List.length_singleton]
    omega
  | wait h => simp [budget, h, Pc.weight]
  | cancel hc => simp [budget, hc]

theorem Inv.acc (hend : sc.portEnd < 2 ^ 63 - 1) (hi : Inv sc p) : Acc (fun q q' => Step sc q' q) p := by
  suffices ∀ n p, budget sc p = n → Inv sc p → Acc (fun q q' => Step sc q' q) p from this _ p rfl hi
  intro n
  induction n using Nat.strong_induction_on with
  | _ n ih =>
    exact fun p hb hi => ⟨_, fun q hs => ih _ (hb ▸ budget_lt hend hi hs) q rfl (hi.step hend hs)⟩

theorem exists_step_of_goroutine (h : p.probing ≠ [] ∨ p.unlocking ≠ [] ∨ p.finishing ≠ []) :
    ∃ p', Step sc p p' := by
  rcases h with h | h | h <;> obtain ⟨q, hq⟩ := List.exists_mem_of_ne_nil _ h
  exacts [⟨_, .probe hq 0 (.error "") (.error "")⟩, ⟨_, .unlock hq⟩, ⟨_, .finish hq⟩]

theorem Inv.progress (hcap : 1 ≤ sc.concurrency) (hi : Inv sc p)
    (hpc : p.pc = .loop ∨ p.pc = .send ∨ p.pc = .wait) : ∃ p', Step sc p p' := by
  rcases hpc with h | h | h
  · by_cases hp : p.port ≤ sc.portEnd
    · cases hc : p.cancelled
      exacts [⟨_, .check h hp hc⟩, ⟨_, .stop h hp hc⟩]
    · exact ⟨_, .exit h (not_le.mp hp)⟩
  · by_cases hs : (p.sem : Int) < sc.concurrency
    · exact ⟨_, .send h hs⟩
    · have := hi.sem_eq
      refine exists_step_of_goroutine ?_
      simp only [ne_eq, ← List.length_eq_zero]
      omega
  · by_cases hw : p.wg = 0
    · exact ⟨_, .wait h hw (fun _ => 0) (List.Perm.refl _)⟩
    · have := hi.wg_eq
      simp only [h, reduceCtorEq, if_false] at this
      refine exists_step_of_goroutine ?_
      simp only [ne_eq, ← List.length_eq_zero]
      omega

theorem Inv.probed_mem (hi : Inv sc p) {q : Int} (hq : q ∈ p.probed) :
    sc.portStart ≤ q ∧ q ≤ sc.portEnd := by
  have := mem_portRange.mp (hi.spawned.subset (List.mem_append_left _ hq))
  have := hi.port_le
  omega

theorem Inv.spawned_done (hi : Inv sc p) (hd : p.pc = .done) :
    portRange sc.portStart p.port = portRange sc.portStart (sc.portEnd + 1) := by
  have := hi.exited (.inr hd)
  have := hi.port_le
  by_cases h : sc.portStart ≤ sc.portEnd + 1
  · congr 1; omega
  · simp only [portRange]; congr 2; omega

theorem scan_pass_completes (hcap : 1 ≤ sc.concurrency) (hend : sc.portEnd < 2 ^ 63 - 1)
    (hp : Reachable sc r p) :
    (p.probing.length + p.unlocking.length : Int) ≤ sc.concurrency ∧
      (p.pc = .send → sc.concurrency ≤ p.sem → p.probing ++ p.unlocking ≠ []) ∧
      ((p.pc = .loop ∨ p.pc = .send ∨ p.pc = .wait) → ∃ p', Step sc p p') ∧
      p.probed.Nodup ∧ (∀ q ∈ p.probed, sc.portStart ≤ q ∧ q ≤ sc.portEnd) ∧
      (p.pc = .done → p.probed.Perm (portRange sc.portStart (sc.portEnd + 1)) ∧
        p.probing = [] ∧ p.unlocking = [] ∧ p.finishing = []) ∧
      Acc (fun q q' => Step sc q' q) p := by
  have hi := hp.inv (by omega) hend
  have hsem := hi.sem_eq
  have hle := hi.sem_le
  refine ⟨by omega, fun _ hfull => ?_, hi.progress hcap, ?_, fun q => hi.probed_mem, fun hd => ?_,
    hi.acc hend⟩
  · intro h
    rw [List.append_eq_nil] at h
    simp only [h.1, h.2, List.length_nil] at hsem
    omega
  · exact (hi.spawned.nodup_iff.mpr (nodup_portRange _ _)).of_append_left
  · obtain ⟨h₁, h₂, h₃⟩ := hi.done_idle hd
    refine ⟨?_, h₁, h₂, h₃⟩
    simpa [h₁, hi.spawned_done hd] using hi.spawned

def defaultPass : Pass :=
  start (ofConfig (Config.defaults (some "alice"))) (Registry.new 30000000000) false

theorem scan_pass_completes_defaults :
    1 ≤ (ofConfig (Config.defaults (some "alice"))).concurrency ∧
      (ofConfig (Config.defaults (some "alice"))).portEnd < 2 ^ 63 - 1 ∧
      Reachable (ofConfig (Config.defaults (some "alice"))) (Registry.new 30000000000) defaultPass ∧
      ((defaultPass.probing.length + defaultPass.unlocking.length : Int) ≤
          (ofConfig (Config.defaults (some "alice"))).concurrency ∧
        (defaultPass.pc = .send → (ofConfig (Config.defaults (some "alice"))).concurrency ≤ defaultPass.sem →
          defaultPass.probing ++ defaultPass.unlocking ≠ []) ∧
        ((defaultPass.pc = .loop ∨ defaultPass.pc = .send ∨ defaultPass.pc = .wait) →
          ∃ p', Step (ofConfig (Config.defaults (some "alice"))) defaultPass p') ∧
        defaultPass.probed.Nodup ∧
        (∀ q ∈ defaultPass.probed, (ofConfig (Config.defaults (some "alice"))).portStart ≤ q ∧
          q ≤ (ofConfig (Config.defaults (some "alice"))).portEnd) ∧
        (defaultPass.pc = .done →
          defaultPass.probed.Perm (portRange (ofConfig (Config.defaults (some "alice"))).portStart
            ((ofConfig (Config.defaults (some "alice"))).portEnd + 1)) ∧
          defaultPass.probing = [] ∧ defaultPass.unlocking = [] ∧ defaultPass.finishing = []) ∧
        Acc (fun q q' => Step (ofConfig (Config.defaults (some "alice"))) q' q) defaultPass) :=
  have hcap := by decide
  have hend := by decide
  have hp := ⟨false, .refl⟩
  ⟨hcap, hend, hp, scan_pass_completes hcap hend hp⟩

def Blocked (sc : Scanner) (r : Registry) (p : Pass) : Prop :=
  p.registry = r ∧ p.port = sc.portStart ∧ p.probing = [] ∧ p.unlocking = [] ∧ p.finishing = [] ∧
    p.probed = [] ∧ (p.pc = .loop ∨ p.pc = .send ∨ p.pc = .returned)

theorem Blocked.step (hc : sc.concurrency = 0) (hr : sc.portStart ≤ sc.portEnd)
    (hb : Blocked sc r p) (hs : Step sc p p') : Blocked sc r p' := by
  obtain ⟨h₁, h₂, h₃, h₄, h₅, h₆, h₇⟩ := hb
  cases hs with
  | check | stop | cancel => simp_all [Blocked]
  | exit _ hp => omega
  | send _ hs => omega
  | probe hq | unlock hq | finish hq => simp_all
  | wait h => simp_all

theorem Reachable.blocked (hc : sc.concurrency = 0) (hr : sc.portStart ≤ sc.portEnd)
    (hp : Reachable sc r p) : Blocked sc r p := by
  obtain ⟨cancelled, hp⟩ := hp
  induction hp with
  | refl => simp [Blocked, start, hc]
  | tail _ hs ih => exact ih.step hc hr hs

def zeroConcurrency : Config :=
  { Config.defaults (some "alice") with scanConcurrency := 0 }

theorem scan_blocks_at_zero_concurrency :
    zeroConcurrency.validate = .ok () ∧
      Reachable (ofConfig zeroConcurrency) r ⟨r, false, .send, 30000, 1, 0, [], [], [], []⟩ ∧
      ∀ p, Reachable (ofConfig zeroConcurrency) r p →
        p.pc ≠ .wait ∧ p.pc ≠ .done ∧ p.probed = [] ∧ p.probing = [] ∧ p.registry = r := by
  refine ⟨rfl, ⟨false, .single (.check rfl (by decide : (30000 : Int) ≤ 31000) rfl)⟩, fun p hp => ?_⟩
  obtain ⟨h₁, -, h₃, -, -, h₆, h₇⟩ := hp.blocked rfl (by decide)
  refine ⟨?_, ?_, h₆, h₃, h₁⟩ <;> rcases h₇ with h | h | h <;> simp [h]

end Scanner
