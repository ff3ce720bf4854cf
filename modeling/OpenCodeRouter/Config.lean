import OpenCodeRouter.Registry.Basic

namespace Duration

def millisecond : Duration := 1000000
def second : Duration := 1000000000

def fmtFrac (v prec : Nat) : List Char × Nat :=
  let digits := ((List.range prec).map fun i => v / 10 ^ i % 10).dropWhile (· = 0)
  (if digits = [] then [] else '.' :: (digits.reverse.map Nat.digitChar), v / 10 ^ prec)

def string (d : Duration) : String :=
  let u := d.natAbs
  let body :=
    if u = 0 then ['0', 's']
    else if u < 1000000000 then
      let (unit, prec) :=
        if u < 1000 then (['n', 's'], 0) else if u < 1000000 then (['µ', 's'], 3)
        else (['m', 's'], 6)
      let (frac, v) := fmtFrac u prec
      Nat.toDigits 10 v ++ frac ++ unit
    else
      let (frac, v) := fmtFrac u 9
      let secs := Nat.toDigits 10 (v % 60) ++ frac ++ ['s']
      if v / 60 = 0 then secs else
        let mins := Nat.toDigits 10 (v / 60 % 60) ++ 'm' :: secs
        if v / 3600 = 0 then mins else Nat.toDigits 10 (v / 3600) ++ 'h' :: mins
  ⟨(if d < 0 then ['-'] else []) ++ body⟩

example : string 500000000 = "500ms" ∧ string (-1500) = "-1.5µs" ∧ string 5400000000000 = "1h30m0s" := by
  decide

end Duration

structure Config where
  listenPort : Int
  listenAddr : String
  username : String
  scanPortStart : Int
  scanPortEnd : Int
  scanInterval : Duration
  scanConcurrency : Int
  probeTimeout : Duration
  staleAfter : Duration
  enableMDNS : Bool
  mdnsServiceType : String
  deriving DecidableEq, Repr

namespace Config

def defaults (currentUser : Option String) : Config where
  listenPort := 8080
  listenAddr := "0.0.0.0:8080"
  username := currentUser.getD "unknown"
  scanPortStart := 30000
  scanPortEnd := 31000
  scanInterval := 5 * Duration.second
  scanConcurrency := 20
  probeTimeout := 800 * Duration.millisecond
  staleAfter := 30 * Duration.second
  enableMDNS := true
  mdnsServiceType := "_opencode._tcp"

def validate (c : Config) : Except String Unit :=
  if c.listenPort < 1 ∨ c.listenPort > 65535 then
    .error ("listen port must be 1-65535, got " ++ toString c.listenPort)
  else if c.scanPortStart < 1 ∨ c.scanPortStart > 65535 then
    .error ("scan port start must be 1-65535, got " ++ toString c.scanPortStart)
  else if c.scanPortEnd < c.scanPortStart then
    .error ("scan port end (" ++ toString c.scanPortEnd ++ ") must be >= start (" ++
      toString c.scanPortStart ++ ")")
  else if c.scanPortEnd > 65535 then
    .error ("scan port end must be <= 65535, got " ++ toString c.scanPortEnd)
  else if c.username = "" then
    .error "username must not be empty"
  else if c.scanInterval < Duration.second then
    .error ("scan interval must be >= 1s, got " ++ Duration.string c.scanInterval)
  else .ok ()

def domainFor (c : Config) (slug : String) : String :=
  slug ++ "-" ++ c.username ++ ".local"

theorem domainFor_data (c : Config) (slug : String) :
    (c.domainFor slug).data = (slug.data ++ '-' :: c.username.data) ++ ".local".data := by
  simp [domainFor]

structure Valid (c : Config) : Prop where
  listenPort : 1 ≤ c.listenPort ∧ c.listenPort ≤ 65535
  scanPortStart : 1 ≤ c.scanPortStart ∧ c.scanPortStart ≤ 65535
  scanPortEnd : c.scanPortStart ≤ c.scanPortEnd ∧ c.scanPortEnd ≤ 65535
  username : c.username ≠ ""
  scanInterval : Duration.second ≤ c.scanInterval

theorem validate_eq_ok_iff {c : Config} : c.validate = .ok () ↔ c.Valid := by
  unfold validate
  constructor
  · intro h
    split_ifs at h with h₁ h₂ h₃ h₄ h₅ h₆
    push_neg at h₁ h₂ h₃ h₄ h₆
    exact ⟨⟨h₁.1, h₁.2⟩, ⟨h₂.1, h₂.2⟩, ⟨h₃, h₄⟩, h₅, h₆⟩
  · rintro ⟨h₁, h₂, h₃, h₄, h₅⟩
    rw [if_neg (by omega), if_neg (by omega), if_neg (by omega), if_neg (by omega), if_neg h₄,
      if_neg (by simp only [not_lt]; exact h₅)]

theorem data_prefix_append {f m : String} (h : f.data <+: m.data) (x : String) :
    f.data <+: (m ++ x).data := by
  rw [String.data_append]
  exact h.trans (List.prefix_append _ _)

theorem validate_error_names_field {c : Config} {e : String} (h : c.validate = .error e) :
    ∃ field ∈ ["listen port", "scan port start", "scan port end", "username", "scan interval"],
      field.data <+: e.data := by
  unfold validate at h
  split at h
  · cases h; exact ⟨"listen port", by decide, data_prefix_append (by decide) _⟩
  split at h
  · cases h; exact ⟨"scan port start", by decide, data_prefix_append (by decide) _⟩
  split at h
  · cases h
    exact ⟨"scan port end", by decide,
      data_prefix_append (data_prefix_append (data_prefix_append (data_prefix_append (by decide) _) _) _) _⟩
  split at h
  · cases h; exact ⟨"scan port end", by decide, data_prefix_append (by decide) _⟩
  split at h
  · cases h; exact ⟨"username", by decide, by decide⟩
  split at h
  · cases h; exact ⟨"scan interval", by decide, data_prefix_append (by decide) _⟩
  · cases h

theorem validate_defaults {u : Option String} (h : u ≠ some "") : (defaults u).validate = .ok () := by
  refine validate_eq_ok_iff.mpr ⟨?_, ?_, ?_, ?_, ?_⟩ <;> cases u <;> simp_all [defaults, Duration.second]

end Config
