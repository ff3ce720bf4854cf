import OpenCodeRouter.Registry.Slugify
import Mathlib.Data.List.Chain

namespace Slug

def Apart (a b : Char) : Prop :=
  ¬(a = '-' ∧ b = '-')

instance : DecidableRel Apart :=
  fun _ _ => inferInstanceAs (Decidable ¬(_ ∧ _))

structure Normal (cs : List Char) : Prop where
  ne_nil : cs ≠ []
  slugChar : ∀ c ∈ cs, isSlugChar c
  head : cs.head? ≠ some '-'
  getLast : cs.getLast? ≠ some '-'
  chain : cs.Chain' Apart

theorem Normal.not_double_hyphen {cs : List Char} (hn : Normal cs) : ¬['-', '-'] <:+: cs := by
  rintro ⟨s, t, rfl⟩
  exact List.chain'_pair.mp hn.chain.left_of_append.right_of_append ⟨rfl, rfl⟩

theorem slugRune_of_isSlugChar {c : Char} (h : isSlugChar c) : slugRune c = c := by
  simp [slugRune, h]

theorem chain'_collapseHyphens : ∀ cs : List Char, (collapseHyphens cs).Chain' Apart
  | [] => List.chain'_nil
  | c :: cs => by
    have ih := chain'_collapseHyphens cs
    simp only [collapseHyphens]
    split
    · next rest h =>
      rw [h] at ih
      split
      · exact ih
      · exact .cons (fun h' => ‹¬c = '-'› h'.1) ih
    · next h =>
      refine ih.cons' fun d hd hcd => ?_
      rcases hcs : collapseHyphens cs with _ | ⟨d', rest'⟩ <;> rw [hcs] at hd <;> cases hd
      exact h rest' (hcd.2 ▸ hcs)

theorem collapseHyphens_of_chain' : ∀ {cs : List Char}, cs.Chain' Apart → collapseHyphens cs = cs
  | [], _ => rfl
  | c :: cs, h => by
    have ih : collapseHyphens cs = cs := collapseHyphens_of_chain' h.tail
    simp only [collapseHyphens]
    rw [ih]
    split
    · rw [if_neg fun hc => (List.chain'_cons.mp h).1 ⟨hc, rfl⟩]
    · rfl

theorem chain'_reverse_apart {cs : List Char} : cs.reverse.Chain' Apart ↔ cs.Chain' Apart :=
  have symm : ∀ a b, Apart a b → Apart b a := fun _ _ h h' => h ⟨h'.2, h'.1⟩
  List.chain'_reverse.trans ⟨(·.imp fun a b => symm b a), (·.imp fun a b => symm a b)⟩

theorem chain'_trimHyphens {cs : List Char} (h : cs.Chain' Apart) : (trimHyphens cs).Chain' Apart := by
  have hd := chain'_reverse_apart.mpr (h.suffix (List.dropWhile_suffix (· == '-')))
  exact chain'_reverse_apart.mpr (hd.suffix (List.dropWhile_suffix _))

theorem getLast?_trimHyphens (cs : List Char) : (trimHyphens cs).getLast? ≠ some '-' := by
  intro h
  have hd := List.head?_dropWhile_not (· == '-') (cs.dropWhile (· == '-')).reverse
  rw [trimHyphens, List.getLast?_reverse] at h
  rw [h] at hd
  exact absurd hd (by decide)

theorem head?_trimHyphens (cs : List Char) : (trimHyphens cs).head? ≠ some '-' := by
  intro h
  have hd := List.head?_dropWhile_not (· == '-') cs
  rw [trimHyphens, List.head?_reverse] at h
  -- The first rune kept is the last of the reversed text after the leading `-` are dropped.
  have hl : (cs.dropWhile (· == '-')).reverse.getLast? = some '-' := by
    rw [← List.takeWhile_append_dropWhile (· == '-') (cs.dropWhile (· == '-')).reverse,
      List.getLast?_append, h]
    rfl
  rw [List.getLast?_reverse] at hl
  rw [hl] at hd
  exact absurd hd (by decide)

theorem dropWhile_hyphen_of_head? {cs : List Char} (h : cs.head? ≠ some '-') :
    cs.dropWhile (· == '-') = cs := by
  cases cs with
  | nil => rfl
  | cons c cs => exact List.dropWhile_cons_of_neg (by simpa using h)

theorem trimHyphens_of_ends {cs : List Char} (hh : cs.head? ≠ some '-')
    (hl : cs.getLast? ≠ some '-') : trimHyphens cs = cs := by
  rw [trimHyphens, dropWhile_hyphen_of_head? hh,
    dropWhile_hyphen_of_head? (by rwa [List.head?_reverse]), List.reverse_reverse]

end Slug

open Slug

theorem normal_slugify (x : String) : Normal (slugify x).data := by
  have ⟨hne, hc⟩ := isSlug_slugify x
  suffices (slugify x).data.head? ≠ some '-' ∧ (slugify x).data.getLast? ≠ some '-' ∧
      (slugify x).data.Chain' Apart from ⟨hne, hc, this.1, this.2.1, this.2.2⟩
  dsimp only [slugify]
  split
  · exact ⟨by decide, by decide, by simp [Apart]⟩
  · exact ⟨head?_trimHyphens _, getLast?_trimHyphens _, chain'_trimHyphens (chain'_collapseHyphens _)⟩

theorem slugify_of_normal {s : String} (hn : Normal s.data) : slugify s = s := by
  have hb : Filepath.base s.data = s.data :=
    Filepath.base_of_slash_not_mem hn.ne_nil fun h => absurd (hn.slugChar _ h) (by decide)
  have hm : s.data.map slugRune = s.data :=
    (List.map_congr_left fun c hc => slugRune_of_isSlugChar (hn.slugChar c hc)).trans (List.map_id _)
  simp only [slugify, hb, hm, collapseHyphens_of_chain' hn.chain, trimHyphens_of_ends hn.head hn.getLast,
    if_neg hn.ne_nil]

theorem slugify_normalises (x : String) :
    (slugify x).data ≠ [] ∧ (∀ c ∈ (slugify x).data, isSlugChar c) ∧
      (slugify x).data.head? ≠ some '-' ∧ (slugify x).data.getLast? ≠ some '-' ∧
      ¬['-', '-'] <:+: (slugify x).data ∧ slugify (slugify x) = slugify x :=
  have hn := normal_slugify x
  ⟨hn.ne_nil, hn.slugChar, hn.head, hn.getLast, hn.not_double_hyphen, slugify_of_normal hn⟩

example : slugify "/home/alice/--My  Project--" = "my-project" := by decide
