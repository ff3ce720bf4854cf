import OpenCodeRouter.Config

structure Health where
  healthy : Bool
  version : String
  deriving DecidableEq, Repr

structure Project where
  id : String
  path : String
  deriving DecidableEq, Repr

structure Scanner where
  portStart : Int
  portEnd : Int
  concurrency : Int
  deriving DecidableEq, Repr

namespace Scanner

def ofConfig (cfg : Config) : Scanner :=
  ⟨cfg.scanPortStart, cfg.scanPortEnd, cfg.scanConcurrency⟩

def probePort (port : Int) (health : Except String Health) (project : Except String Project) :
    Option (String × String × String) :=
  match health with
  | .error _ => none
  | .ok h =>
    if !h.healthy then none else
      match project with
      | .error _ => some ("port-" ++ toString port, "/unknown/port-" ++ toString port, h.version)
      | .ok p =>
        let projectPath := if p.path = "" then "/unknown/" ++ p.id else p.path
        some (⟨Filepath.base projectPath.data⟩, projectPath, h.version)

def probe (r : Registry) (now : Time) (port : Int) (health : Except String Health)
    (project : Except String Project) : Registry :=
  match probePort port health project with
  | some (projectName, projectPath, version) => (r.upsert now port projectName projectPath version).1
  | none => r

inductive Pc
  | loop
  | send
  | wait
  | done
  | returned
  | panicked
  deriving DecidableEq, Repr

-- Each probe goroutine is in `probing`, `unlocking` or `finishing` by what it does next; `probed`
-- is a ghost field, the ports whose probe ran.
structure Pass where
  registry : Registry
  cancelled : Bool
  pc : Pc
  port : Int
  wg : Nat
  sem : Nat
  probing : List Int
  unlocking : List Int
  finishing : List Int
  probed : List Int

def start (sc : Scanner) (r : Registry) (cancelled : Bool) : Pass :=
  ⟨r, cancelled, if sc.concurrency < 0 then .panicked else .loop, sc.portStart, 0, 0, [], [], [], []⟩

-- A step of the goroutine running `scan`, of one probe goroutine, or the context being cancelled.
-- With `concurrency = 0` the channel is unbuffered and a send waits for a receiver, which no
-- goroutine of the pass can be before its own send.
inductive Step (sc : Scanner) : Pass → Pass → Prop
  | check {p : Pass} (h : p.pc = .loop) (hp : p.port ≤ sc.portEnd) (hc : p.cancelled = false) :
      Step sc p { p with pc := .send, wg := p.wg + 1 }
  | stop {p : Pass} (h : p.pc = .loop) (hp : p.port ≤ sc.portEnd) (hc : p.cancelled = true) :
      Step sc p { p with pc := .returned }
  | exit {p : Pass} (h : p.pc = .loop) (hp : sc.portEnd < p.port) :
      Step sc p { p with pc := .wait }
  | send {p : Pass} (h : p.pc = .send) (hs : p.sem < sc.concurrency) :
      Step sc p { p with
        pc := .loop, port := incInt p.port, sem := p.sem + 1, probing := p.probing ++ [p.port] }
  | probe {p : Pass} {port : Int} (h : port ∈ p.probing) (now : Time)
      (health : Except String Health) (project : Except String Project) :
      Step sc p { p with
        registry := probe p.registry now port health project, probing := p.probing.erase port
        unlocking := p.unlocking ++ [port], probed := p.probed ++ [port] }
  | unlock {p : Pass} {port : Int} (h : port ∈ p.unlocking) :
      Step sc p { p with
        sem := p.sem - 1, unlocking := p.unlocking.erase port, finishing := p.finishing ++ [port] }
  | finish {p : Pass} {port : Int} (h : port ∈ p.finishing) :
      Step sc p { p with wg := p.wg - 1, finishing := p.finishing.erase port }
  | wait {p : Pass} (h : p.pc = .wait) (hw : p.wg = 0) (clock : Registry.Entry → Time)
      {entries : List Registry.Entry} (he : entries.Perm p.registry.backends.entries) :
      Step sc p { p with pc := .done, registry := (p.registry.prune clock entries).1 }
  | cancel {p : Pass} (hc : p.cancelled = false) :
      Step sc p { p with cancelled := true }

def Reachable (sc : Scanner) (r : Registry) (p : Pass) : Prop :=
  ∃ cancelled, Relation.ReflTransGen (Step sc) (start sc r cancelled) p

def portRange (start stop : Int) : List Int :=
  (List.range (stop - start).toNat).map fun i : Nat => start + i

theorem portRange_succ {start stop : Int} (h : start ≤ stop) :
    portRange start (stop + 1) = portRange start stop ++ [stop] := by
  have : (stop + 1 - start).toNat = (stop - start).toNat + 1 := by omega
  simp only [portRange, this, List.range_succ, List.map_append, List.map_singleton]
  congr 2
  omega

theorem mem_portRange {start stop port : Int} : port ∈ portRange start stop ↔ start ≤ port ∧ port < stop := by
  simp only [portRange, List.mem_map, List.mem_range]
  constructor
  · rintro ⟨i, hi, rfl⟩; omega
  · intro h; exact ⟨(port - start).toNat, by omega, by omega⟩

theorem nodup_portRange (start stop : Int) : (portRange start stop).Nodup :=
  (List.nodup_range _).map fun _ _ h => by simpa using h

end Scanner
