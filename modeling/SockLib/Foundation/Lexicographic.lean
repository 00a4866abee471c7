import Mathlib.Data.List.Lex
import Mathlib.Data.Nat.Digits.Defs
import Mathlib.Data.Prod.Lex
import Mathlib.Order.WithBot

/-!
# Lexicographic comparison through sort keys

A comparison function on elements extends to sequences letter by letter. If the elements
are compared through a key in a linear order, sequences are compared through the sequence
of keys, so a hand-written comparison inherits the laws of the order. Sequences of digits of
one length are compared like the numbers they are written for.
-/

namespace SockLib

section Lexicographic

variable {α β : Type}

/-- Sequence comparison: the first differing element decides, a proper prefix is smaller. -/
def lexLess (less : α → α → Bool) : List α → List α → Bool
  | _, [] => false
  | [], _ :: _ => true
  | x :: xs, y :: ys => less x y || (!less y x && lexLess less xs ys)

variable [LinearOrder β]

theorem lexLess_iff_key {less : α → α → Bool} {key : α → β}
    (hless : ∀ x y, less x y = true ↔ key x < key y) (xs ys : List α) :
    lexLess less xs ys = true ↔ xs.map key < ys.map key := by
  induction xs generalizing ys with
  | nil =>
    cases ys with
    | nil => simp [lexLess]
    | cons y ys => simp [lexLess]
  | cons x xs ih =>
    cases ys with
    | nil => simp [lexLess]
    | cons y ys =>
      rw [lexLess, Bool.or_eq_true, Bool.and_eq_true, Bool.not_eq_true', List.map_cons,
        List.map_cons, List.cons_lt_cons_iff, hless, ih, ← Bool.not_eq_true, hless]
      constructor
      · rintro (h | ⟨hge, h⟩)
        · exact Or.inl h
        · rcases lt_or_eq_of_le (not_lt.mp hge) with hlt | heq
          · exact Or.inl hlt
          · exact Or.inr ⟨heq, h⟩
      · rintro (h | ⟨heq, h⟩)
        · exact Or.inl h
        · exact Or.inr ⟨heq ▸ lt_irrefl _, h⟩

/-- Comparing sequences first and a second component where they are equal. -/
theorem lexLess_then_iff {γ : Type} [LinearOrder γ] {less : α → α → Bool} {key : α → β}
    [DecidableEq α] (hless : ∀ x y, less x y = true ↔ key x < key y)
    (hkey : Function.Injective key) (xs ys : List α) (p q : γ) :
    (if xs ≠ ys then lexLess less xs ys else decide (p < q)) = true ↔
      toLex (xs.map key, p) < toLex (ys.map key, q) := by
  rw [Prod.Lex.toLex_lt_toLex]
  by_cases h : xs = ys
  · subst h
    simp
  · have hmap : xs.map key ≠ ys.map key := fun he => h (List.map_injective_iff.mpr hkey he)
    rw [if_pos h, lexLess_iff_key hless]
    exact ⟨Or.inl, fun ho => ho.resolve_right fun hand => hmap hand.1⟩

omit [LinearOrder β] in
lemma eq_iff_key {γ : Type} {key : α → β} (hkey : Function.Injective key) (xs ys : List α)
    (p q : γ) : toLex (xs.map key, p) = toLex (ys.map key, q) ↔ xs = ys ∧ p = q := by
  rw [toLex_inj, Prod.mk.injEq, (List.map_injective_iff.mpr hkey).eq_iff]

end Lexicographic

section Positional

variable {α : Type} {b : ℕ}

/-- The number that a sequence of digits stands for, most significant digit first. -/
def positional (b : ℕ) (digit : α → ℕ) (xs : List α) : ℕ := Nat.ofDigits b (xs.map digit).reverse

@[simp] lemma positional_nil (b : ℕ) (digit : α → ℕ) : positional b digit [] = 0 := rfl

@[simp] lemma positional_cons (b : ℕ) (digit : α → ℕ) (x : α) (xs : List α) :
    positional b digit (x :: xs) = positional b digit xs + b ^ xs.length * digit x := by
  rw [positional, List.map_cons, Nat.ofDigits_reverse_cons, List.length_map]
  rfl

lemma positional_lt {digit : α → ℕ} (hd : ∀ x, digit x < b) (xs : List α) :
    positional b digit xs < b ^ xs.length := by
  induction xs with
  | nil => simp
  | cons x xs ih =>
    have hx : digit x + 1 ≤ b := hd x
    calc positional b digit (x :: xs)
        = positional b digit xs + b ^ xs.length * digit x := positional_cons b digit x xs
      _ < b ^ xs.length + b ^ xs.length * digit x := Nat.add_lt_add_right ih _
      _ = b ^ xs.length * (digit x + 1) := by ring
      _ ≤ b ^ xs.length * b := Nat.mul_le_mul_left _ hx
      _ = b ^ (x :: xs).length := by rw [List.length_cons, pow_succ]

/-- The more significant part decides, whatever the digits behind it are. -/
lemma add_mul_lt_iff {m u v d e : ℕ} (hu : u < m) (hv : v < m) :
    u + m * d < v + m * e ↔ d < e ∨ d = e ∧ u < v := by
  rcases lt_trichotomy d e with h | h | h
  · have hle : m * (d + 1) ≤ m * e := Nat.mul_le_mul_left m h
    rw [Nat.mul_succ] at hle
    exact iff_of_true (by omega) (Or.inl h)
  · subst h
    simp
  · have hle : m * (e + 1) ≤ m * d := Nat.mul_le_mul_left m h
    rw [Nat.mul_succ] at hle
    exact iff_of_false (by omega) (by omega)

/-- Digit by digit comparison of sequences of one length compares the numbers. -/
theorem map_lt_map_iff_positional {digit : α → ℕ} (hd : ∀ x, digit x < b) {xs ys : List α}
    (hlen : xs.length = ys.length) :
    xs.map digit < ys.map digit ↔ positional b digit xs < positional b digit ys := by
  induction xs generalizing ys with
  | nil =>
    obtain rfl : ys = [] := List.length_eq_zero_iff.mp hlen.symm
    simp
  | cons x xs ih =>
    cases ys with
    | nil => cases hlen
    | cons y ys =>
      have hlen' : xs.length = ys.length := Nat.succ_injective hlen
      have hx := positional_lt hd xs
      have hy := positional_lt hd ys
      rw [← hlen'] at hy
      rw [List.map_cons, List.map_cons, List.cons_lt_cons_iff, ih hlen', positional_cons,
        positional_cons, ← hlen', add_mul_lt_iff hx hy]

lemma positional_inj {digit : α → ℕ} (hd : ∀ x, digit x < b) (hinj : Function.Injective digit)
    {xs ys : List α} (hlen : xs.length = ys.length)
    (h : positional b digit xs = positional b digit ys) : xs = ys := by
  apply List.map_injective_iff.mpr hinj
  apply le_antisymm
  · exact not_lt.mp fun hlt => ((map_lt_map_iff_positional hd hlen.symm).mp hlt).ne h.symm
  · exact not_lt.mp fun hlt => ((map_lt_map_iff_positional hd hlen).mp hlt).ne h

/-- Comparing sequences of one length first, and a second component where they are equal, is
comparing the pairs of the number and the second component. -/
theorem lexLess_then_iff_positional {γ : Type} [LinearOrder γ] [DecidableEq α]
    {less : α → α → Bool} {digit : α → ℕ} (hless : ∀ x y, less x y = true ↔ digit x < digit y)
    (hd : ∀ x, digit x < b) (hinj : Function.Injective digit) {xs ys : List α}
    (hlen : xs.length = ys.length) (p q : γ) :
    (if xs ≠ ys then lexLess less xs ys else decide (p < q)) = true ↔
      toLex (positional b digit xs, p) < toLex (positional b digit ys, q) := by
  rw [lexLess_then_iff hless hinj, Prod.Lex.toLex_lt_toLex, Prod.Lex.toLex_lt_toLex,
    map_lt_map_iff_positional hd hlen, (List.map_injective_iff.mpr hinj).eq_iff]
  apply or_congr_right
  apply and_congr_left'
  constructor
  · rintro rfl
    rfl
  · exact positional_inj hd hinj hlen

end Positional

end SockLib
