import Mathlib.Data.List.Basic
import OpenCodeRouter.Registry.Basic

-- `freeAt` is a ghost field: the number of the `portInUse` call that reported the port free.
structure ManagedProcess where
  path : String
  port : Int
  freeAt : Nat
  deriving DecidableEq, Repr

structure Launcher where
  portStart : Int
  portEnd : Int
  procs : List ManagedProcess
  deriving DecidableEq, Repr

structure Launcher.Env where
  abs : String → Except String String
  isDir : String → Bool
  inUse : Nat → Bool
  start : Nat → Except String Unit

namespace Launcher

def new (portStart portEnd : Int) : Launcher :=
  ⟨portStart, portEnd, []⟩

-- The inner loop of `Launch` from `port`, the `portInUse` calls numbered from `calls`. Below
-- `math.MaxInt64` it runs at most `(portEnd - port).toNat + 1` times, which the fuel allows for
-- (`findFree_succ`); Go's loop that wraps past `math.MaxInt64` goes on from `math.MinInt64`, and there
-- the fuel stops it.
def findFree (portEnd : Int) (inUse : Nat → Bool) : Nat → Int → Nat → Option (Int × Nat)
  | fuel, port, calls =>
    if !inUse calls then some (port, calls + 1)
    else if incInt port > portEnd then none
    else
      match fuel with
      | 0 => none
      | fuel + 1 => findFree portEnd inUse fuel (incInt port) (calls + 1)

def noFreePorts (l : Launcher) : String :=
  "no free ports in range " ++ toString l.portStart ++ "-" ++ toString l.portEnd

def launchFrom (env : Env) : Launcher → List String → Int → Nat → Nat → Launcher × Except String Unit
  | l, [], _, _, _ => (l, .ok ())
  | l, dir :: dirs, nextPort, calls, starts =>
    match env.abs dir with
    | .error _ => launchFrom env l dirs nextPort calls starts
    | .ok abs =>
      if !env.isDir abs then launchFrom env l dirs nextPort calls starts
      else
        match findFree l.portEnd env.inUse (l.portEnd - nextPort).toNat nextPort calls with
        | none => (l, .error l.noFreePorts)
        | some (port, calls) =>
          match env.start starts with
          | .error _ => launchFrom env l dirs port calls (starts + 1)
          | .ok () =>
            launchFrom env { l with procs := l.procs ++ [⟨abs, port, calls - 1⟩] } dirs (incInt port)
              calls (starts + 1)

def launch (l : Launcher) (env : Env) (paths : List String) : Launcher × Except String Unit :=
  launchFrom env l paths l.portStart 0 0

def shutdown (l : Launcher) : Launcher × List ManagedProcess :=
  ({ l with procs := [] }, l.procs)

variable {portEnd port q : Int} {inUse : Nat → Bool} {fuel calls calls' : Nat}

theorem findFree_succ (hend : portEnd < 2 ^ 63 - 1) (hp : port < 2 ^ 63 - 1)
    (h : (portEnd - port).toNat ≤ fuel) :
    findFree portEnd inUse (fuel + 1) port calls = findFree portEnd inUse fuel port calls := by
  induction fuel generalizing port calls with
  | zero => unfold findFree; rw [incInt_of_lt hp]; split_ifs <;> first | rfl | omega
  | succ fuel ih =>
    unfold findFree
    rw [incInt_of_lt hp]
    split_ifs
    exacts [rfl, rfl, ih (by omega) (by omega)]

-- Without a wrap the port found was reported free by the last call, is not below where the loop
-- started, and is past `portEnd` only if it is where it started.
theorem findFree_eq_some (hend : portEnd < 2 ^ 63 - 1) (hp : port < 2 ^ 63 - 1)
    (h : findFree portEnd inUse fuel port calls = some (q, calls')) :
    port ≤ q ∧ inUse (calls' - 1) = false ∧ calls < calls' ∧ (port < q → q ≤ portEnd) := by
  induction fuel generalizing port calls with
  | zero =>
    rw [findFree] at h
    split_ifs at h with h₁
    cases h
    simpa using h₁
  | succ fuel ih =>
    rw [findFree, incInt_of_lt hp] at h
    split_ifs at h with h₁ h₂
    · cases h; simpa using h₁
    · obtain ⟨h₃, h₄, h₅, h₆⟩ := ih (by omega) h
      exact ⟨by omega, h₄, by omega, fun _ => if h₇ : port + 1 < q then h₆ h₇ else by omega⟩

end Launcher
