import Mathlib.Data.List.Basic
import Mathlib.Data.List.Infix
import Mathlib.Tactic.Common

/-!
# Searching text

`find pat text` is the position of the first occurrence of `pat`. Most occurrences of
interest are pinned down by their first letter: where that letter does not occur earlier,
neither does the pattern.
-/

namespace SockLib

section Text

variable {α : Type}

/-- A pattern at the start of a text does not go over a letter that it lacks. -/
lemma prefix_of_prefix_append_cons {pat l rest : List α} {x : α} (hx : x ∉ pat)
    (h : pat <+: l ++ x :: rest) : pat <+: l := by
  by_cases hlen : pat.length ≤ l.length
  · exact List.prefix_of_prefix_length_le h (List.prefix_append l _) hlen
  · exfalso
    have hle : l ++ [x] <+: l ++ x :: rest := ⟨rest, by simp⟩
    have hpre : l ++ [x] <+: pat := by
      apply List.prefix_of_prefix_length_le hle h
      rw [List.length_append, List.length_singleton]
      omega
    exact hx (hpre.subset (by simp))

/-- Nor does an occurrence within the text. -/
lemma infix_append_cons {pat l rest : List α} {x : α} (hpat : pat ≠ []) (hx : x ∉ pat)
    (h : pat <:+: l ++ x :: rest) : pat <:+: l ∨ pat <:+: rest := by
  induction l with
  | nil =>
    rcases List.infix_cons_iff.mp h with hpre | hin
    · have hnil := prefix_of_prefix_append_cons (l := []) hx hpre
      exact absurd (List.prefix_nil.mp hnil) hpat
    · exact Or.inr hin
  | cons c l ih =>
    rcases List.infix_cons_iff.mp h with hpre | hin
    · have hl := prefix_of_prefix_append_cons (l := c :: l) hx hpre
      exact Or.inl hl.isInfix
    · rcases ih hin with hl | hr
      · exact Or.inl (List.infix_cons_iff.mpr (Or.inr hl))
      · exact Or.inr hr

variable [DecidableEq α]

/-- The position of the first occurrence of a pattern. -/
def find (pat : List α) : List α → Option Nat
  | [] => if pat = [] then some 0 else none
  | c :: cs => if pat.isPrefixOf (c :: cs) then some 0 else (find pat cs).map (· + 1)

/-- Nothing is found exactly when the pattern does not occur. -/
theorem find_eq_none_iff {pat text : List α} : find pat text = none ↔ ¬pat <:+: text := by
  induction text with
  | nil =>
    rw [find, List.infix_nil]
    split <;> simp_all
  | cons c text ih =>
    rw [find, List.infix_cons_iff, not_or, ← ih]
    by_cases hpre : pat <+: c :: text
    · simp [List.isPrefixOf_iff_prefix.mpr hpre, hpre]
    · have hno : pat.isPrefixOf (c :: text) = false := by
        rw [← Bool.not_eq_true, List.isPrefixOf_iff_prefix]
        exact hpre
      simp [hno, hpre]

/-- A pattern with a letter that the text lacks does not occur. -/
lemma find_eq_none {pat text : List α} {c : α} (hp : c ∈ pat) (ht : c ∉ text) :
    find pat text = none := by
  rw [find_eq_none_iff]
  intro h
  exact ht (h.subset hp)

/-- The first occurrence of a pattern whose first letter does not occur before it. -/
lemma find_append {c : α} {pat before after : List α} (hb : c ∉ before) :
    find (c :: pat) (before ++ (c :: pat ++ after)) = some before.length := by
  induction before with
  | nil =>
    have hpre : (c :: pat).isPrefixOf (c :: pat ++ after) = true :=
      List.isPrefixOf_iff_prefix.mpr (List.prefix_append _ _)
    rw [List.nil_append, List.cons_append, find, ← List.cons_append, hpre, if_pos rfl]
    rfl
  | cons d before ih =>
    have hcd : c ≠ d := fun h => hb (h ▸ List.mem_cons_self)
    have hpre : (c :: pat).isPrefixOf (d :: (before ++ (c :: pat ++ after))) = false := by
      rw [← Bool.not_eq_true, List.isPrefixOf_iff_prefix]
      exact fun h => hcd (List.cons_prefix_cons.mp h).1
    rw [List.cons_append, find, hpre, if_neg Bool.false_ne_true,
      ih (fun h => hb (List.mem_cons_of_mem d h))]
    rfl

end Text

end SockLib
