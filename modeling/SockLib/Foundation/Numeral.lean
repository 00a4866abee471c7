import Mathlib.Data.Char
import Mathlib.Tactic.Common

/-!
# Numerals as bytes

`numeral b n` writes `n` in base `b`, `numeralValue` reads it back. Bases go up to
sixteen, with the letters `a` to `f` for the digits above nine.
-/

namespace SockLib

/-- The byte of an ASCII character. -/
def charByte (c : Char) : UInt8 := UInt8.ofNat c.toNat

/-- The bytes of an ASCII text. -/
def bytes (s : String) : List UInt8 := s.toList.map charByte

def numeral (b n : Nat) : List UInt8 := (Nat.toDigits b n).map charByte

/-- What a byte counts as a digit; sixteen where it is none. -/
def digitWorth (c : UInt8) : Nat :=
  if 48 ≤ c.toNat ∧ c.toNat ≤ 57 then c.toNat - 48
  else if 97 ≤ c.toNat ∧ c.toNat ≤ 102 then c.toNat - 87
  else 16

/-- The value of a digit in base `b`. -/
def digitOf (b : Nat) (c : UInt8) : Option Nat :=
  if digitWorth c < b then some (digitWorth c) else none

def isDigit (b : Nat) (c : UInt8) : Bool := (digitOf b c).isSome

/-- The number read off a sequence of digits, going on from a number already read. -/
def numeralValue (b : Nat) (acc : Nat) : List UInt8 → Nat
  | [] => acc
  | c :: cs => numeralValue b (b * acc + (digitOf b c).getD 0) cs

lemma numeralValue_append (b acc : Nat) (xs ys : List UInt8) :
    numeralValue b acc (xs ++ ys) = numeralValue b (numeralValue b acc xs) ys := by
  induction xs generalizing acc with
  | nil => rfl
  | cons x xs ih => rw [List.cons_append, numeralValue, ih, numeralValue]

lemma isDigit_ten {c : UInt8} : isDigit 10 c = true ↔ 48 ≤ c.toNat ∧ c.toNat ≤ 57 := by
  unfold isDigit digitOf digitWorth
  split_ifs <;> simp_all <;> omega

lemma digitOf_digitChar {b d : Nat} (hd : d < b) (hb : b ≤ 16) :
    digitOf b (charByte d.digitChar) = some d := by
  have hworth : ∀ d < 16, digitWorth (charByte d.digitChar) = d := by decide
  rw [digitOf, hworth d (by omega), if_pos hd]

lemma numeral_step {b : Nat} (hb : 1 < b) (n : Nat) :
    numeral b n = if n < b then [charByte n.digitChar]
      else numeral b (n / b) ++ [charByte (n % b).digitChar] := by
  unfold numeral
  rw [Nat.toDigits_eq_if hb]
  split <;> simp

lemma numeral_ne_nil (b n : Nat) : numeral b n ≠ [] := by
  simp [numeral, Nat.toDigits_ne_nil]

/-- Every byte of a numeral is a digit. -/
lemma isDigit_of_mem_numeral {b : Nat} (hb : 1 < b) (h16 : b ≤ 16) {n : Nat} {c : UInt8}
    (hc : c ∈ numeral b n) : isDigit b c = true := by
  induction n using Nat.strong_induction_on with
  | _ n ih =>
    rw [numeral_step hb] at hc
    by_cases hn : n < b
    · rw [if_pos hn, List.mem_singleton] at hc
      rw [hc, isDigit, digitOf_digitChar hn h16]
      rfl
    · rw [if_neg hn, List.mem_append, List.mem_singleton] at hc
      rcases hc with hc | hc
      · exact ih (n / b) (Nat.div_lt_self (by omega) hb) hc
      · rw [hc, isDigit, digitOf_digitChar (Nat.mod_lt n (by omega)) h16]
        rfl

lemma notMem_numeral {b : Nat} (hb : 1 < b) (h16 : b ≤ 16) {c : UInt8} (hc : isDigit b c = false)
    (n : Nat) : c ∉ numeral b n := by
  intro hmem
  rw [isDigit_of_mem_numeral hb h16 hmem] at hc
  cases hc

/-- A numeral reads back as the number it was written from. -/
theorem numeralValue_numeral {b : Nat} (hb : 1 < b) (h16 : b ≤ 16) (n : Nat) :
    numeralValue b 0 (numeral b n) = n := by
  induction n using Nat.strong_induction_on with
  | _ n ih =>
    rw [numeral_step hb]
    by_cases hn : n < b
    · rw [if_pos hn, numeralValue, digitOf_digitChar hn h16]
      simp [numeralValue]
    · rw [if_neg hn, numeralValue_append, ih (n / b) (Nat.div_lt_self (by omega) hb),
        numeralValue, digitOf_digitChar (Nat.mod_lt n (by omega)) h16]
      exact Nat.div_add_mod n b

end SockLib
