import Mathlib.Data.List.Basic
import Mathlib.Data.List.Sort
import Mathlib.Data.List.Dedup
import Mathlib.Data.UInt
import Mathlib.Tactic.IntervalCases

abbrev Bytes := List UInt8

def utf8 (s : String) : Bytes :=
  s.data.flatMap String.utf8EncodeChar

theorem utf8_append (s t : String) : utf8 (s ++ t) = utf8 s ++ utf8 t := by
  simp [utf8]

namespace URL

def ishex (c : UInt8) : Bool :=
  decide (48 ≤ c ∧ c ≤ 57 ∨ 97 ≤ c ∧ c ≤ 102 ∨ 65 ≤ c ∧ c ≤ 70)

def unhex (c : UInt8) : UInt8 :=
  if 48 ≤ c ∧ c ≤ 57 then c - 48
  else if 97 ≤ c ∧ c ≤ 102 then c - 97 + 10
  else if 65 ≤ c ∧ c ≤ 70 then c - 65 + 10
  else 0

def upperhex (d : UInt8) : UInt8 :=
  if d < 10 then d + 48 else d - 10 + 65

inductive Encoding
  | path
  | queryComponent
  deriving DecidableEq, Repr

def shouldEscape (c : UInt8) (mode : Encoding) : Bool :=
  if 97 ≤ c ∧ c ≤ 122 ∨ 65 ≤ c ∧ c ≤ 90 ∨ 48 ≤ c ∧ c ≤ 57 then false
  -- - _ . ~
  else if c = 45 ∨ c = 95 ∨ c = 46 ∨ c = 126 then false
  -- $ & + , / : ; = ? @
  else if c = 36 ∨ c = 38 ∨ c = 43 ∨ c = 44 ∨ c = 47 ∨ c = 58 ∨ c = 59 ∨ c = 61 ∨ c = 63 ∨ c = 64 then
    match mode with
    | .path => decide (c = 63)
    | .queryComponent => true
  else true

def escape (s : Bytes) (mode : Encoding) : Bytes :=
  s.flatMap fun c =>
    if c = 32 ∧ mode = .queryComponent then [43]
    else if shouldEscape c mode then [37, upperhex (c >>> 4), upperhex (c &&& 15)] else [c]

def unescape : Bytes → Encoding → Option Bytes
  | [], _ => some []
  | c :: rest, mode =>
    if c = 37 then
      match rest with
      | h :: l :: rest =>
        if ishex h && ishex l then ((unhex h <<< 4 ||| unhex l) :: ·) <$> unescape rest mode
        else none
      | _ => none
    else ((if c = 43 ∧ mode = .queryComponent then 32 else c) :: ·) <$> unescape rest mode

def validEncoded (s : Bytes) : Bool :=
  s.all fun c => [33, 36, 38, 39, 40, 41, 42, 43, 44, 59, 61, 58, 64, 91, 93, 37].contains c ||
    !shouldEscape c .path

def containsCTLByte (s : Bytes) : Bool :=
  s.any fun c => decide (c < 32 ∨ c = 127)

end URL

structure URL where
  path : Bytes
  rawPath : Bytes
  rawQuery : Bytes
  forceQuery : Bool
  deriving DecidableEq, Repr

namespace URL

def setPath (u : URL) (p : Bytes) : Option URL :=
  (unescape p .path).map fun path => { u with path, rawPath := if escape path .path = p then [] else p }

def escapedPath (u : URL) : Bytes :=
  if u.rawPath ≠ [] ∧ validEncoded u.rawPath ∧ unescape u.rawPath .path = some u.path then u.rawPath
  else if u.path = [42] then [42]
  else escape u.path .path

def requestURI (u : URL) : Bytes :=
  (if u.escapedPath = [] then [47] else u.escapedPath) ++
    if u.forceQuery ∨ u.rawQuery ≠ [] then 63 :: u.rawQuery else []

def parseRequestURI (target : Bytes) : Option URL :=
  if containsCTLByte target then none
  else if target = [42] then some ⟨[42], [], [], false⟩
  else if target.head? ≠ some 47 then none
  else
    let (rest, u) :=
      if target.getLast? = some 63 ∧ target.count 63 = 1 then
        (target.dropLast, ({ path := [], rawPath := [], rawQuery := [], forceQuery := true } : URL))
      else
        (target.takeWhile (· ≠ 63),
          { path := [], rawPath := [], rawQuery := (target.dropWhile (· ≠ 63)).drop 1,
            forceQuery := false })
    u.setPath rest

def singleJoiningSlash (a b : Bytes) : Bytes :=
  match a.getLast? == some 47, b.head? == some 47 with
  | true, true => a ++ b.drop 1
  | false, false => a ++ 47 :: b
  | _, _ => a ++ b

def joinURLPath (a b : URL) : Bytes × Bytes :=
  if a.rawPath = [] ∧ b.rawPath = [] then (singleJoiningSlash a.path b.path, [])
  else
    let apath := a.escapedPath
    let bpath := b.escapedPath
    match apath.getLast? == some 47, bpath.head? == some 47 with
    | true, true => (a.path ++ b.path.drop 1, apath ++ bpath.drop 1)
    | false, false => (a.path ++ 47 :: b.path, apath ++ 47 :: bpath)
    | _, _ => (a.path ++ b.path, apath ++ bpath)


-- `url.Values`, as the pairs `ParseQuery` appended to it, in order: `v[k]` is the values of the pairs
-- with key `k`.
structure Values where
  pairs : List (Bytes × Bytes)
  deriving DecidableEq, Repr

-- `ParseQuery` with its error dropped: a `&`-separated part holding a `;`, or whose key or value is
-- badly escaped, is skipped.
def parseQuery (query : Bytes) : Values :=
  ⟨(query.splitOn 38).filterMap fun key =>
    if 59 ∈ key ∨ key = [] then none
    else
      match unescape (key.takeWhile (· ≠ 61)) .queryComponent,
          unescape ((key.dropWhile (· ≠ 61)).drop 1) .queryComponent with
      | some k, some v => some (k, v)
      | _, _ => none⟩

-- One pair written by `Encode`: `&` after what is already written, then the escaped key, `=` and
-- the escaped value.
def writePair (buf : Bytes) (kv : Bytes × Bytes) : Bytes :=
  (if buf = [] then [] else buf ++ [38]) ++ escape kv.1 .queryComponent ++ 61 :: escape kv.2 .queryComponent

-- `Values.Encode`: the keys in byte order, each with its values in the order they were added.
def Values.encode (v : Values) : Bytes :=
  let keys := (v.pairs.map (·.1)).dedup.insertionSort (· ≤ ·)
  (keys.flatMap fun k => v.pairs.filter (·.1 == k)).foldl writePair []

-- The loop of `cleanQueryParams`: whether it meets a `;`, or a `%` not followed by two hex digits.
def needsReencode : Bytes → Bool
  | [] => false
  | c :: rest =>
    if c = 59 then true
    else if c = 37 then
      match rest with
      | h :: l :: rest => if ishex h && ishex l then needsReencode rest else true
      | _ => true
    else needsReencode rest

-- `cleanQueryParams`, which `ReverseProxy` runs on the outbound query before the `Rewrite` hook:
-- a query its loop finds fault with is re-encoded whole, through `ParseQuery` and `Encode`.
def cleanQueryParams (s : Bytes) : Bytes :=
  if needsReencode s then (parseQuery s).encode else s

end URL

namespace UInt8

theorem le_iff_toNat_le {a b : UInt8} : a ≤ b ↔ a.toNat ≤ b.toNat := by
  rw [le_def, BitVec.le_def]; rfl

theorem lt_iff_toNat_lt {a b : UInt8} : a < b ↔ a.toNat < b.toNat := by
  rw [lt_def, BitVec.lt_def]; rfl

theorem eq_iff_toNat_eq {a b : UInt8} : a = b ↔ a.toNat = b.toNat :=
  ⟨congrArg _, fun h => UInt8.eq_of_toBitVec_eq (BitVec.eq_of_toNat_eq h)⟩

theorem toNat_lit (n : Nat) : (no_index (OfNat.ofNat n : UInt8)).toNat = n % 256 :=
  rfl

theorem shiftRight_shiftLeft_or_and (c : UInt8) : (c >>> 4) <<< 4 ||| (c &&& 15) = c := by
  apply UInt8.eq_of_toBitVec_eq
  show (c.toBitVec >>> 4) <<< 4 ||| c.toBitVec &&& 15 = c.toBitVec
  ext i
  have := i.2
  simp only [BitVec.getLsbD_or, BitVec.getLsbD_and, BitVec.getLsbD_shiftLeft,
    BitVec.getLsbD_ushiftRight, BitVec.getLsbD_ofNat]
  interval_cases h : i.1 <;> simp [h]

theorem toNat_shiftRight_four_lt (c : UInt8) : (c >>> 4).toNat < 16 := by
  have : c.toNat < 256 := c.toBitVec.isLt
  show (c.toBitVec >>> 4).toNat < 16
  rw [BitVec.toNat_ushiftRight, Nat.shiftRight_eq_div_pow]
  exact Nat.div_lt_of_lt_mul this

theorem toNat_and_fifteen_lt (c : UInt8) : (c &&& 15).toNat < 16 :=
  Nat.lt_of_le_of_lt (BitVec.toNat_and _ _ ▸ Nat.and_le_right) (by decide)

end UInt8

namespace URL

variable {c : UInt8} {a t rest : Bytes} {mode : Encoding}

theorem shouldEscape_eq_true (h : c.toNat < 32 ∨ c.toNat = 127 ∨ c.toNat = 63) :
    shouldEscape c mode = true := by
  simp only [shouldEscape, UInt8.le_iff_toNat_le, UInt8.eq_iff_toNat_eq, UInt8.toNat_lit, Nat.reduceMod]
  rw [if_neg (by omega), if_neg (by omega)]
  split_ifs
  · cases mode
    · simpa [UInt8.eq_iff_toNat_eq] using by omega
    · rfl
  · rfl

theorem shouldEscape_eq_false
    (h : 97 ≤ c.toNat ∧ c.toNat ≤ 122 ∨ 48 ≤ c.toNat ∧ c.toNat ≤ 57 ∨ c.toNat = 45) :
    shouldEscape c mode = false := by
  simp only [shouldEscape, UInt8.le_iff_toNat_le, UInt8.eq_iff_toNat_eq, UInt8.toNat_lit, Nat.reduceMod]
  rcases h with h | h | h
  · rw [if_pos (.inl h)]
  · rw [if_pos (.inr (.inr h))]
  · rw [if_neg (by omega), if_pos (.inl h)]

-- A byte left as it is is neither a space nor `%`, nor `+` in a query component.
theorem ne_of_shouldEscape_eq_false (h : shouldEscape c mode = false) :
    c ≠ 32 ∧ c ≠ 37 ∧ ¬(c = 43 ∧ mode = .queryComponent) := by
  refine ⟨?_, ?_, ?_⟩
  · rintro rfl; cases mode <;> exact absurd h (by decide)
  · rintro rfl; cases mode <;> exact absurd h (by decide)
  · rintro ⟨rfl, rfl⟩; exact absurd h (by decide)

theorem containsCTLByte_eq_false_iff : containsCTLByte a = false ↔ ∀ c ∈ a, ¬(c < 32 ∨ c = 127) := by
  simp [containsCTLByte]

theorem unescape_cons_of_ne (h : c ≠ 37) : unescape (c :: rest) mode =
    ((if c = 43 ∧ mode = .queryComponent then 32 else c) :: ·) <$> unescape rest mode := by
  rw [unescape.eq_def]
  simp only [if_neg h]

theorem unescape_cons_path (h : c ≠ 37) :
    unescape (c :: rest) .path = (c :: ·) <$> unescape rest .path := by
  simp [unescape_cons_of_ne h]

theorem unescape_append_of_forall_ne (h : ∀ c ∈ a, c ≠ 37) :
    unescape (a ++ t) .path = (a ++ ·) <$> unescape t .path := by
  induction a with
  | nil => simp
  | cons c a ih =>
    rw [List.cons_append, unescape_cons_path (h c (.head _)), ih fun c hc => h c (.tail _ hc)]
    simp [Functor.map_map, Function.comp_def]

theorem escape_cons : escape (c :: rest) mode =
    (if c = 32 ∧ mode = .queryComponent then [43]
      else if shouldEscape c mode then [37, upperhex (c >>> 4), upperhex (c &&& 15)] else [c]) ++
      escape rest mode :=
  List.flatMap_cons _ _ _

theorem escape_append : escape (a ++ t) mode = escape a mode ++ escape t mode :=
  List.flatMap_append _ _ _

theorem escape_cons_of_shouldEscape_eq_false (h : shouldEscape c mode = false) :
    escape (c :: rest) mode = c :: escape rest mode := by
  simp [escape_cons, h, (ne_of_shouldEscape_eq_false h).1]

theorem escape_eq_self (h : ∀ c ∈ a, shouldEscape c mode = false) : escape a mode = a := by
  induction a with
  | nil => rfl
  | cons c a ih =>
    rw [escape_cons_of_shouldEscape_eq_false (h c (.head _)), ih fun c hc => h c (.tail _ hc)]

theorem ne_of_validEncoded (h : validEncoded t) (hc : c ∈ t) :
    c ≠ 63 ∧ ¬(c < 32 ∨ c = 127) := by
  have hall := List.all_eq_true.mp h c hc
  by_contra hbad
  have hesc : c.toNat < 32 ∨ c.toNat = 127 ∨ c.toNat = 63 := by
    simp only [ne_eq, not_and_or, not_not, UInt8.eq_iff_toNat_eq, UInt8.lt_iff_toNat_lt,
      UInt8.toNat_lit, Nat.reduceMod] at hbad
    omega
  simp only [shouldEscape_eq_true hesc, List.contains, List.elem_eq_mem, List.mem_cons,
    UInt8.eq_iff_toNat_eq, UInt8.toNat_lit, Nat.reduceMod, List.mem_nil_iff, or_false,
    Bool.not_true, Bool.or_false, decide_eq_true_eq] at hall
  omega

theorem upperhex_nibble : ∀ n : Fin 16,
    ishex (upperhex (UInt8.ofNat n)) = true ∧ unhex (upperhex (UInt8.ofNat n)) = UInt8.ofNat n := by
  decide

theorem ishex_upperhex {d : UInt8} (h : d.toNat < 16) :
    ishex (upperhex d) = true ∧ unhex (upperhex d) = d := by
  have hd : d = UInt8.ofNat d.toNat :=
    UInt8.toNat.inj (UInt8.toNat_ofNat_of_lt (show d.toNat < 256 by omega)).symm
  rw [hd]
  exact upperhex_nibble ⟨d.toNat, h⟩

theorem ne_of_ishex (h : ishex c = true) : c ≠ 63 ∧ ¬(c < 32 ∨ c = 127) := by
  simp only [ishex, UInt8.le_iff_toNat_le, UInt8.toNat_lit, Nat.reduceMod, decide_eq_true_eq] at h
  simp only [ne_eq, UInt8.eq_iff_toNat_eq, UInt8.lt_iff_toNat_lt, UInt8.toNat_lit, Nat.reduceMod]
  omega

-- Unescaping undoes escaping, in either mode: a query component's space goes out as `+` and its
-- `+` as `%2B`.
theorem unescape_escape (a : Bytes) (mode : Encoding) : unescape (escape a mode) mode = some a := by
  induction a with
  | nil => rfl
  | cons c a ih =>
    rw [escape_cons]
    split
    · next hsp =>
      obtain ⟨rfl, rfl⟩ := hsp
      rw [List.singleton_append, unescape_cons_of_ne (by decide), ih]
      rfl
    split
    · next hsp hs =>
      have ⟨hh, uh⟩ := ishex_upperhex (UInt8.toNat_shiftRight_four_lt c)
      have ⟨hl, ul⟩ := ishex_upperhex (UInt8.toNat_and_fifteen_lt c)
      simp [unescape, hh, hl, uh, ul, ih, UInt8.shiftRight_shiftLeft_or_and]
    · next hs =>
      obtain ⟨-, hne, hplus⟩ := ne_of_shouldEscape_eq_false (Bool.eq_false_iff.mpr hs)
      rw [List.singleton_append, unescape_cons_of_ne hne, if_neg hplus, ih]
      rfl

-- An escaped string carries neither a `?` nor a control byte.
theorem ne_of_mem_escape (hc : c ∈ escape a mode) : c ≠ 63 ∧ ¬(c < 32 ∨ c = 127) := by
  obtain ⟨d, -, hd⟩ := List.mem_flatMap.mp hc
  split at hd
  · obtain rfl := List.mem_singleton.mp hd
    decide
  split at hd
  · simp only [List.mem_cons, List.mem_nil_iff, or_false] at hd
    rcases hd with rfl | rfl | rfl
    · decide
    · exact ne_of_ishex (ishex_upperhex (UInt8.toNat_shiftRight_four_lt d)).1
    · exact ne_of_ishex (ishex_upperhex (UInt8.toNat_and_fifteen_lt d)).1
  · next hs =>
    obtain rfl := List.mem_singleton.mp hd
    by_contra hbad
    apply hs
    apply shouldEscape_eq_true
    simp only [ne_eq, not_and_or, not_not, UInt8.eq_iff_toNat_eq, UInt8.lt_iff_toNat_lt,
      UInt8.toNat_lit, Nat.reduceMod] at hbad
    omega

theorem escape_ne_nil (h : a ≠ []) : escape a mode ≠ [] := by
  obtain ⟨c, a, rfl⟩ := List.exists_cons_of_ne_nil h
  rw [escape_cons]
  split_ifs <;> simp

theorem head_unescape (h : unescape (47 :: a) .path = some t) : t.head? = some 47 := by
  rw [unescape_cons_path (by decide)] at h
  obtain ⟨_, -, rfl⟩ := Option.map_eq_some'.mp h
  rfl

theorem parseRequestURI_query {p q : Bytes} (hp : p.head? = some 47)
    (hpath : ∀ c ∈ p, c ≠ 63 ∧ ¬(c < 32 ∨ c = 127)) (hq : containsCTLByte q = false) :
    parseRequestURI (p ++ 63 :: q) = (⟨[], [], q, decide (q = [])⟩ : URL).setPath p := by
  obtain ⟨p', hp'⟩ := List.head?_eq_some_iff.mp hp
  have hctl : containsCTLByte (p ++ 63 :: q) = false := by
    rw [containsCTLByte_eq_false_iff] at hq ⊢
    intro c hc
    rcases List.mem_append.mp hc with hc | hc
    · exact (hpath c hc).2
    rcases List.mem_cons.mp hc with rfl | hc
    exacts [by decide, hq c hc]
  have hcount : (p ++ 63 :: q).count 63 = q.count 63 + 1 := by
    rw [List.count_append, List.count_cons_self,
      List.count_eq_zero.mpr fun h => (hpath _ h).1 rfl]
    omega
  have hpos : ∀ c ∈ p, decide (c ≠ 63) = true := fun c hc => by simpa using (hpath c hc).1
  unfold parseRequestURI
  rw [hctl, if_neg (by simp), if_neg (by subst hp'; simp), if_neg (by subst hp'; simp)]
  by_cases hq0 : q = []
  · subst hq0
    have hc : (p ++ [63]).getLast? = some 63 ∧ (p ++ [63]).count 63 = 1 :=
      ⟨List.getLast?_concat .., by rw [hcount]; rfl⟩
    rw [if_pos hc]
    simp [List.dropLast_concat]
  · have hlast : ¬((p ++ 63 :: q).getLast? = some 63 ∧ (p ++ 63 :: q).count 63 = 1) := by
      rintro ⟨hl, hc⟩
      rw [hcount] at hc
      obtain ⟨q, c, rfl⟩ := List.eq_nil_or_concat q |>.resolve_left hq0
      rw [List.concat_eq_append, ← List.cons_append, ← List.append_assoc,
        List.getLast?_concat] at hl
      simp_all
    rw [if_neg hlast, List.takeWhile_append_of_pos hpos, List.dropWhile_append_of_pos hpos]
    simp [hq0]

theorem requestURI_of_rawPath_nil {u : URL} (hr : u.rawPath = []) (hp : u.path.head? = some 47) :
    u.requestURI = escape u.path .path ++ if u.forceQuery ∨ u.rawQuery ≠ [] then 63 :: u.rawQuery else [] := by
  obtain ⟨p, hp'⟩ := List.head?_eq_some_iff.mp hp
  have hstar : u.path ≠ [42] := by rw [hp']; simp
  simp [requestURI, escapedPath, hr, hstar, escape_ne_nil (hp' ▸ List.cons_ne_nil _ _ : u.path ≠ [])]

@[simp] theorem escapedPath_rawQuery (u : URL) (r : Bytes) :
    ({ u with rawQuery := r } : URL).escapedPath = u.escapedPath :=
  rfl

theorem setPath_spec {u u' : URL} {p : Bytes} (h : u.setPath p = some u') (hp : p.head? = some 47) :
    u'.path.head? = some 47 ∧ (u'.rawPath = [] ∨ u'.rawPath.head? = some 47) ∧
      u'.rawQuery = u.rawQuery ∧ u'.forceQuery = u.forceQuery := by
  obtain ⟨path, hu, rfl⟩ := Option.map_eq_some'.mp h
  obtain ⟨p, rfl⟩ := List.head?_eq_some_iff.mp hp
  refine ⟨head_unescape hu, ?_, rfl, rfl⟩
  split
  exacts [.inl rfl, .inr rfl]

theorem escapedPath_setPath {u u' : URL} {p : Bytes} (h : u.setPath p = some u') (hv : validEncoded p)
    (hp : p.head? = some 47) : u'.escapedPath = p := by
  obtain ⟨path, hu, rfl⟩ := Option.map_eq_some'.mp h
  obtain ⟨p, rfl⟩ := List.head?_eq_some_iff.mp hp
  have hstar : path ≠ [42] := by
    have := head_unescape hu
    rintro rfl; simp at this
  by_cases he : escape path .path = 47 :: p
  · simp [escapedPath, he, hstar]
  · simp [escapedPath, he, hv, hu]

theorem requestURI_setPath {u u' : URL} {p : Bytes} (h : u.setPath p = some u') (hv : validEncoded p)
    (hp : p.head? = some 47) :
    u'.requestURI = p ++ if u.forceQuery ∨ u.rawQuery ≠ [] then 63 :: u.rawQuery else [] := by
  have he := escapedPath_setPath h hv hp
  obtain ⟨path, -, rfl⟩ := Option.map_eq_some'.mp h
  obtain ⟨p, rfl⟩ := List.head?_eq_some_iff.mp hp
  simp [requestURI, he]

theorem joinURLPath_empty {b : URL} (hp : b.path.head? = some 47)
    (he : b.rawPath ≠ [] → b.escapedPath.head? = some 47) :
    joinURLPath ⟨[], [], [], false⟩ b = (b.path, if b.rawPath = [] then [] else b.escapedPath) := by
  have he0 : escapedPath ⟨[], [], [], false⟩ = [] := rfl
  by_cases hr : b.rawPath = []
  · simp [joinURLPath, hr, singleJoiningSlash, hp]
  · simp [joinURLPath, hr, he0, he hr]

theorem joinURLPath_empty_setPath {u v : URL} {p : Bytes} (h : u.setPath p = some v)
    (hv : validEncoded p) (hp : p.head? = some 47) :
    joinURLPath ⟨[], [], [], false⟩ v = (v.path, v.rawPath) := by
  have he := escapedPath_setPath h hv hp
  obtain ⟨path, hu, rfl⟩ := Option.map_eq_some'.mp h
  obtain ⟨p, rfl⟩ := List.head?_eq_some_iff.mp hp
  rw [joinURLPath_empty (head_unescape hu) fun _ => by rw [he]; rfl, he]
  split_ifs <;> simp_all

theorem cleanQueryParams_of_needsReencode_eq_false {s : Bytes} (h : needsReencode s = false) :
    cleanQueryParams s = s := by
  simp [cleanQueryParams, h]

@[simp] theorem cleanQueryParams_nil : cleanQueryParams [] = [] :=
  rfl

theorem not_ctl_of_mem_writePair {buf : Bytes} (hb : ∀ c ∈ buf, ¬(c < 32 ∨ c = 127))
    {kv : Bytes × Bytes} (hc : c ∈ writePair buf kv) : ¬(c < 32 ∨ c = 127) := by
  unfold writePair at hc
  rcases List.mem_append.mp hc with hc | hc
  · rcases List.mem_append.mp hc with hc | hc
    · split at hc
      · cases hc
      · rcases List.mem_append.mp hc with hc | hc
        · exact hb c hc
        · obtain rfl := List.mem_singleton.mp hc; decide
    · exact (ne_of_mem_escape hc).2
  · rcases List.mem_cons.mp hc with rfl | hc
    · decide
    · exact (ne_of_mem_escape hc).2

theorem not_ctl_of_mem_foldl_writePair : ∀ (l : List (Bytes × Bytes)) {buf : Bytes},
    (∀ c ∈ buf, ¬(c < 32 ∨ c = 127)) → ∀ c ∈ l.foldl writePair buf, ¬(c < 32 ∨ c = 127)
  | [], _, hb => hb
  | _ :: l, _, hb => not_ctl_of_mem_foldl_writePair l fun _ hc => not_ctl_of_mem_writePair hb hc

-- `Encode` writes only escaped keys and values, `=` and `&`: no control byte.
theorem not_ctl_of_mem_encode {v : Values} (hc : c ∈ v.encode) : ¬(c < 32 ∨ c = 127) :=
  not_ctl_of_mem_foldl_writePair _ (fun _ h => by cases h) c hc

theorem containsCTLByte_cleanQueryParams {s : Bytes} (h : containsCTLByte s = false) :
    containsCTLByte (cleanQueryParams s) = false := by
  unfold cleanQueryParams
  split
  · exact containsCTLByte_eq_false_iff.mpr fun _ => not_ctl_of_mem_encode
  · exact h

example : cleanQueryParams (utf8 "a=1;b=2") = [] ∧ cleanQueryParams (utf8 "q=1") = utf8 "q=1" ∧
    cleanQueryParams (utf8 "b=%zz&a=x y&a=1") = utf8 "a=x+y&a=1" := by
  decide

end URL
