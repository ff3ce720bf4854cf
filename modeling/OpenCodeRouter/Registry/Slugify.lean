import Mathlib.Data.List.Basic
import Mathlib.Tactic.IntervalCases

def isSlugChar (c : Char) : Bool :=
  c.isLower || c.isDigit || c == '-'

def IsSlug (s : String) : Prop :=
  s.data ≠ [] ∧ ∀ c ∈ s.data, isSlugChar c

instance (s : String) : Decidable (IsSlug s) :=
  inferInstanceAs (Decidable (_ ∧ _))

theorem IsSlug.dot_not_mem {s : String} (hs : IsSlug s) : '.' ∉ s.data :=
  fun h => absurd (hs.2 _ h) (by decide)

namespace Filepath

def base (path : List Char) : List Char :=
  if path = [] then ['.'] else
    let last := ((path.reverse.dropWhile (· == '/')).takeWhile (· != '/')).reverse
    if last = [] then ['/'] else last

end Filepath

namespace Slug

def slugRune (c : Char) : Char :=
  if isSlugChar c then c
  else if c.isUpper then c.toLower
  else if c = '\u0130' then 'i'
  else if c = '\u212A' then 'k'
  else '-'

def collapseHyphens : List Char → List Char
  | [] => []
  | c :: cs =>
    match collapseHyphens cs with
    | '-' :: rest => if c = '-' then '-' :: rest else c :: '-' :: rest
    | rest => c :: rest

def trimHyphens (cs : List Char) : List Char :=
  ((cs.dropWhile (· == '-')).reverse.dropWhile (· == '-')).reverse

end Slug

open Slug in
def slugify (projectPath : String) : String :=
  let slug := trimHyphens (collapseHyphens ((Filepath.base projectPath.data).map slugRune))
  if slug = [] then "default" else ⟨slug⟩

theorem Char.toNat_bounds_of_isUpper {c : Char} (h : c.isUpper) : 65 ≤ c.toNat ∧ c.toNat ≤ 90 := by
  simpa [Char.isUpper, UInt32.le_def, BitVec.le_def, Char.toNat, UInt32.toNat] using h

theorem Char.isLower_toLower_of_isUpper {c : Char} (h : c.isUpper) : c.toLower.isLower := by
  have hb := Char.toNat_bounds_of_isUpper h
  have hv : (c.toNat + 32).isValidChar := Or.inl (by omega)
  simp only [Char.toLower, h, ↓reduceIte, Char.isLower, Char.ofNat, Char.ofNatAux, hv, ↓reduceDIte]
  simp [UInt32.le_def, BitVec.le_def, UInt32.toNat, hb]

namespace Slug

theorem isSlugChar_slugRune (c : Char) : isSlugChar (slugRune c) := by
  unfold slugRune
  split_ifs with h₁ h₂
  · exact h₁
  · simp [isSlugChar, Char.isLower_toLower_of_isUpper h₂]
  all_goals decide

theorem collapseHyphens_cons (c : Char) (cs : List Char) :
    collapseHyphens (c :: cs) = c :: collapseHyphens cs ∨
      (c = '-' ∧ collapseHyphens (c :: cs) = collapseHyphens cs) := by
  simp only [collapseHyphens]
  split
  · next rest h => rw [h]; split <;> simp_all
  · simp

theorem collapseHyphens_sublist : ∀ cs : List Char, (collapseHyphens cs).Sublist cs
  | [] => .slnil
  | c :: cs => by
    rcases collapseHyphens_cons c cs with h | ⟨-, h⟩ <;> rw [h]
    · exact (collapseHyphens_sublist cs).cons₂ c
    · exact (collapseHyphens_sublist cs).cons c

theorem trimHyphens_sublist (cs : List Char) : (trimHyphens cs).Sublist cs := by
  have h := (List.dropWhile_sublist (l := (cs.dropWhile (· == '-')).reverse) (· == '-')).reverse
  rw [List.reverse_reverse] at h
  exact h.trans (List.dropWhile_sublist _)

end Slug

open Slug in
theorem isSlug_slugify (projectPath : String) : IsSlug (slugify projectPath) := by
  dsimp only [slugify]
  split
  · decide
  · next h =>
    refine ⟨h, fun c hc => ?_⟩
    obtain ⟨d, -, rfl⟩ :=
      List.mem_map.mp (((trimHyphens_sublist _).trans (collapseHyphens_sublist _)).subset hc)
    exact isSlugChar_slugRune d

namespace Filepath

variable {s pre p : List Char}

theorem base_of_slash_not_mem (h : s ≠ []) (h' : '/' ∉ s) : base s = s := by
  have hne : ∀ c ∈ s.reverse, (c != '/') = true := fun c hc => by
    simpa using fun he : c = '/' => h' (he ▸ List.mem_reverse.mp hc)
  have hdrop : s.reverse.dropWhile (· == '/') = s.reverse := by
    obtain ⟨c, t, ht⟩ := List.exists_cons_of_ne_nil (List.reverse_ne_nil_iff.mpr h)
    have hc : (c == '/') = false := by simpa using hne c (ht ▸ List.mem_cons_self c t)
    rw [ht, List.dropWhile_cons_of_neg (by simp [hc])]
  simp [base, h, hdrop, List.takeWhile_eq_self_iff.mpr hne]

end Filepath

theorem isSlugChar_digitChar {d : Nat} (h : d < 10) : isSlugChar (Nat.digitChar d) := by
  interval_cases d <;> decide

theorem isSlugChar_of_mem_toDigitsCore {c : Char} :
    ∀ {f n : Nat} {ds : List Char}, c ∈ Nat.toDigitsCore 10 f n ds → c ∈ ds ∨ isSlugChar c
  | 0, _, _, h => .inl h
  | f + 1, n, ds, h => by
    have hd := isSlugChar_digitChar (Nat.mod_lt n (by decide : 10 > 0))
    -- One step of `Nat.toDigitsCore`, read off its definition.
    change c ∈ (if n / 10 = 0 then Nat.digitChar (n % 10) :: ds
      else Nat.toDigitsCore 10 f (n / 10) (Nat.digitChar (n % 10) :: ds)) at h
    split at h
    · rcases List.mem_cons.mp h with rfl | h
      exacts [.inr hd, .inl h]
    · rcases isSlugChar_of_mem_toDigitsCore h with h | h
      · rcases List.mem_cons.mp h with rfl | h
        exacts [.inr hd, .inl h]
      · exact .inr h

theorem isSlugChar_of_mem_toString {c : Char} {n : Int} (h : c ∈ (toString n).data) :
    isSlugChar c := by
  have hnat : ∀ m : Nat, c ∈ (toString m).data → isSlugChar c := fun m h =>
    (isSlugChar_of_mem_toDigitsCore h).resolve_left (List.not_mem_nil _)
  cases n with
  | ofNat m => exact hnat m h
  | negSucc m =>
    rcases List.mem_cons.mp h with rfl | h
    exacts [rfl, hnat _ h]

theorem IsSlug.append_port {s : String} (hs : IsSlug s) (port : Int) :
    IsSlug (s ++ "-" ++ toString port) := by
  refine ⟨by simp [hs.1], fun c hc => ?_⟩
  simp only [String.data_append, List.mem_append] at hc
  rcases hc with (hc | hc) | hc
  · exact hs.2 c hc
  · simp_all; rfl
  · exact isSlugChar_of_mem_toString hc
