import Mathlib.Data.Vector.Basic
import Mathlib.Tactic.Common
import Mathlib.Tactic.Ring

/-!
# Byte memory of fixed size

A `Memory n` is an object of `n` bytes. `slice` reads a range, `load` does so only inside
the object, `store` overwrites a range and fails where the range leaves the object. What
an uninitialised object holds is an argument, so a proof cannot use it. The second half
is the byte order of integers: a host value is the number its bytes spell, least or most
significant byte first.
-/

namespace SockLib

abbrev Memory (n : Nat) := List.Vector UInt8 n

namespace Memory

variable {n : Nat}

/-- An object whose bytes have not been written. -/
def uninit (n : Nat) (junk : Nat → UInt8) : Memory n := List.Vector.ofFn (fun i => junk i)

def slice (m : Memory n) (off len : Nat) : List UInt8 := (m.toList.drop off).take len

lemma length_slice (m : Memory n) {off len : Nat} (h : off + len ≤ n) :
    (m.slice off len).length = len := by
  simp only [slice, List.length_take, List.length_drop, List.Vector.toList_length]
  omega

/-- The bytes of a member array at a fixed place of the object. -/
def array (m : Memory n) (off len : Nat) (h : off + len ≤ n) : Memory len :=
  ⟨m.slice off len, m.length_slice h⟩

@[simp] lemma toList_array (m : Memory n) (off len : Nat) (h : off + len ≤ n) :
    (m.array off len h).toList = m.slice off len := rfl

/-- Read a range that may lie outside the object. -/
def load (m : Memory n) (off len : Nat) : Option (List UInt8) :=
  if off + len ≤ n then some (m.slice off len) else none

/-- Overwrite a range; `none` where it leaves the object. -/
def store (m : Memory n) (off : Nat) (src : List UInt8) : Option (Memory n) :=
  if h : off + src.length ≤ n then
    some ⟨m.toList.take off ++ (src ++ m.toList.drop (off + src.length)), by
      simp only [List.length_append, List.length_take, List.length_drop, List.Vector.toList_length]
      omega⟩
  else none

lemma store_isSome (m : Memory n) {off : Nat} {src : List UInt8} :
    (m.store off src).isSome ↔ off + src.length ≤ n := by
  unfold store
  by_cases h : off + src.length ≤ n
  · rw [dif_pos h]
    exact iff_of_true rfl h
  · simp [h]

lemma store_none (m : Memory n) {off : Nat} {src : List UInt8} :
    m.store off src = none ↔ n < off + src.length := by
  rw [← Option.not_isSome_iff_eq_none, store_isSome, Nat.not_le]

lemma toList_of_store {m m' : Memory n} {off : Nat} {src : List UInt8}
    (h : m.store off src = some m') :
    off + src.length ≤ n ∧
      m'.toList = m.toList.take off ++ (src ++ m.toList.drop (off + src.length)) := by
  unfold store at h
  split at h
  · cases h
    exact ⟨‹_›, rfl⟩
  · cases h

lemma exists_store (m : Memory n) {off : Nat} {src : List UInt8} (h : off + src.length ≤ n) :
    ∃ m', m.store off src = some m' :=
  Option.isSome_iff_exists.mp (m.store_isSome.mpr h)

/-- What was stored is read back, also a part of it. -/
lemma slice_store {m m' : Memory n} {off : Nat} {src : List UInt8}
    (h : m.store off src = some m') {o len : Nat} (ho : off ≤ o) (hl : o + len ≤ off + src.length) :
    m'.slice o len = (src.drop (o - off)).take len := by
  obtain ⟨hle, hm⟩ := toList_of_store h
  have hoff : (m.toList.take off).length = off := by
    simp only [List.length_take, List.Vector.toList_length]
    omega
  have hin : o - off ≤ src.length := by omega
  rw [slice, hm, List.drop_append, hoff, List.drop_eq_nil_of_le (by omega), List.nil_append,
    List.drop_append_of_le_length hin, List.take_append_of_le_length]
  rw [List.length_drop]
  omega

lemma slice_store_self {m m' : Memory n} {off : Nat} {src : List UInt8}
    (h : m.store off src = some m') {len : Nat} (hl : len = src.length) :
    m'.slice off len = src := by
  subst hl
  rw [slice_store h (Nat.le_refl off) (Nat.le_refl _), Nat.sub_self, List.drop_zero,
    List.take_length]

/-- A range before the stored one keeps its bytes. -/
lemma slice_store_before {m m' : Memory n} {off : Nat} {src : List UInt8}
    (h : m.store off src = some m') {o len : Nat} (hl : o + len ≤ off) :
    m'.slice o len = m.slice o len := by
  obtain ⟨hle, hm⟩ := toList_of_store h
  have hoff : (m.toList.take off).length = off := by
    simp only [List.length_take, List.Vector.toList_length]
    omega
  rw [slice, hm, List.drop_append_of_le_length (by omega), List.take_append_of_le_length, slice]
  · rw [List.drop_take, List.take_take, Nat.min_eq_left (by omega)]
  · rw [List.length_drop]
    omega

/-- A range after the stored one keeps its bytes. -/
lemma slice_store_after {m m' : Memory n} {off : Nat} {src : List UInt8}
    (h : m.store off src = some m') {o len : Nat} (ho : off + src.length ≤ o) :
    m'.slice o len = m.slice o len := by
  obtain ⟨hle, hm⟩ := toList_of_store h
  have hoff : (m.toList.take off).length = off := by
    simp only [List.length_take, List.Vector.toList_length]
    omega
  rw [slice, hm, List.drop_append, hoff, List.drop_eq_nil_of_le (by omega), List.nil_append,
    List.drop_append, List.drop_eq_nil_of_le (by omega), List.nil_append, List.drop_drop, slice]
  congr 2
  omega

/-- Reading inside a member array is reading inside the object. -/
lemma slice_array (m : Memory n) {off len : Nat} (h : off + len ≤ n) {o l : Nat}
    (hl : o + l ≤ len) : (m.array off len h).slice o l = m.slice (off + o) l := by
  unfold slice
  rw [toList_array, slice, List.drop_take, List.take_take, Nat.min_eq_left (by omega),
    List.drop_drop]

/-- A range read in two parts. -/
lemma slice_add (m : Memory n) (off a b : Nat) :
    m.slice off (a + b) = m.slice off a ++ m.slice (off + a) b := by
  rw [slice, List.take_add, slice, slice, List.drop_drop]

/-- Objects that agree on a range agree on every part of it. -/
lemma slice_eq_of_slice_eq {k : Nat} {m : Memory n} {m' : Memory k} {o len : Nat}
    (h : m.slice o len = m'.slice o len) {off l : Nat} (ho : o ≤ off) (hl : off + l ≤ o + len) :
    m.slice off l = m'.slice off l := by
  have hpart : ∀ {j : Nat} (x : Memory j),
      x.slice off l = ((x.slice o len).drop (off - o)).take l := by
    intro j x
    rw [slice, slice, List.drop_take, List.take_take, List.drop_drop, Nat.min_eq_left (by omega)]
    congr 2
    omega
  rw [hpart m, hpart m', h]

/-- Objects that agree at the start agree on every range in it. -/
lemma slice_eq_of_agree {k : Nat} {m : Memory n} {m' : Memory k} {len : Nat}
    (h : m.slice 0 len = m'.slice 0 len) {off l : Nat} (hl : off + l ≤ len) :
    m.slice off l = m'.slice off l :=
  slice_eq_of_slice_eq h (Nat.zero_le off) (by omega)

lemma take_slice (m : Memory n) (off : Nat) {len l : Nat} (hl : l ≤ len) :
    (m.slice off len).take l = m.slice off l := by
  rw [slice, List.take_take, Nat.min_eq_left hl, slice]

end Memory

/-! ### Byte order -/

/-- The `k` low bytes of a number, least significant first. -/
def spell : Nat → Nat → List UInt8
  | 0, _ => []
  | k + 1, v => UInt8.ofNat v :: spell k (v / 256)

/-- The number that bytes spell, least significant first. -/
def spelled : List UInt8 → Nat
  | [] => 0
  | b :: bs => b.toNat + 256 * spelled bs

@[simp] lemma length_spell (k v : Nat) : (spell k v).length = k := by
  induction k generalizing v with
  | zero => rfl
  | succ k ih => rw [spell, List.length_cons, ih]

lemma spelled_lt (bs : List UInt8) : spelled bs < 256 ^ bs.length := by
  induction bs with
  | nil => simp [spelled]
  | cons b bs ih =>
    have hb := b.toNat_lt
    rw [spelled, List.length_cons, pow_succ]
    omega

lemma spelled_spell (k v : Nat) (h : v < 256 ^ k) : spelled (spell k v) = v := by
  induction k generalizing v with
  | zero =>
    rw [pow_zero] at h
    simp only [spell, spelled]
    omega
  | succ k ih =>
    have hd : v / 256 < 256 ^ k := by
      rw [pow_succ] at h
      omega
    rw [spell, spelled, ih _ hd, UInt8.toNat_ofNat']
    omega

lemma spell_spelled (bs : List UInt8) : spell bs.length (spelled bs) = bs := by
  induction bs with
  | nil => rfl
  | cons b bs ih =>
    have hb := b.toNat_lt
    have hdiv : (b.toNat + 256 * spelled bs) / 256 = spelled bs := by omega
    have hlow : UInt8.ofNat (b.toNat + 256 * spelled bs) = b := by
      apply UInt8.toNat_inj.mp
      rw [UInt8.toNat_ofNat']
      omega
    rw [List.length_cons, spell, spelled, hdiv, ih, hlow]

/-- The bytes of a `k`-byte integer in memory. -/
def intBytes (bigEndian : Bool) (k v : Nat) : List UInt8 :=
  if bigEndian then (spell k v).reverse else spell k v

/-- The integer that a range of memory holds. -/
def intOfBytes (bigEndian : Bool) (bs : List UInt8) : Nat :=
  spelled (if bigEndian then bs.reverse else bs)

@[simp] lemma length_intBytes (big : Bool) (k v : Nat) : (intBytes big k v).length = k := by
  unfold intBytes
  split <;> simp

lemma intOfBytes_intBytes (big : Bool) {k v : Nat} (h : v < 256 ^ k) :
    intOfBytes big (intBytes big k v) = v := by
  unfold intOfBytes intBytes
  cases big <;> simp [spelled_spell k v h]

lemma intBytes_intOfBytes (big : Bool) {k : Nat} {bs : List UInt8} (h : bs.length = k) :
    intBytes big k (intOfBytes big bs) = bs := by
  subst h
  unfold intOfBytes intBytes
  cases big
  · simp [spell_spelled]
  · have hr := spell_spelled bs.reverse
    rw [List.length_reverse] at hr
    simp [hr]

lemma intOfBytes_lt (big : Bool) {k : Nat} {bs : List UInt8} (h : bs.length = k) :
    intOfBytes big bs < 256 ^ k := by
  subst h
  unfold intOfBytes
  cases big
  · exact spelled_lt bs
  · have hr := spelled_lt bs.reverse
    rw [List.length_reverse] at hr
    exact hr

/-! ### Arrays of sixteen-bit integers -/

/-- The array of integers that a range of memory holds. -/
def words (bigEndian : Bool) : List UInt8 → List UInt16
  | x :: y :: bs => UInt16.ofNat (intOfBytes bigEndian [x, y]) :: words bigEndian bs
  | _ => []

/-- The bytes of an array of integers. -/
def wordBytes (bigEndian : Bool) (ws : List UInt16) : List UInt8 :=
  ws.flatMap (fun w => intBytes bigEndian 2 w.toNat)

lemma length_pair {α : Type} {k : Nat} {bs : List α} (x y : α) (h : bs.length = 2 * k) :
    (x :: y :: bs).length = 2 * (k + 1) := by
  rw [List.length_cons, List.length_cons, h]
  rfl

/-- Induction on a list that is a number of pairs. -/
lemma pairs_induction {α : Type}
    {motive : (k : Nat) → (bs : List α) → bs.length = 2 * k → Prop} (nil : motive 0 [] rfl)
    (pair : ∀ k x y bs h, motive k bs h → motive (k + 1) (x :: y :: bs) (length_pair x y h))
    (k : Nat) (bs : List α) (h : bs.length = 2 * k) : motive k bs h := by
  induction k generalizing bs with
  | zero =>
    obtain rfl : bs = [] := List.length_eq_zero_iff.mp h
    exact nil
  | succ k ih =>
    match bs, h with
    | x :: y :: bs, h =>
      have hbs : bs.length = 2 * k := by
        simp only [List.length_cons] at h
        omega
      exact pair k x y bs hbs (ih bs hbs)

lemma length_words (big : Bool) (k : Nat) {bs : List UInt8} (h : bs.length = 2 * k) :
    (words big bs).length = k := by
  induction k, bs, h using pairs_induction with
  | nil => rfl
  | pair k x y bs h ih => rw [words, List.length_cons, ih]

@[simp] lemma length_wordBytes (big : Bool) (ws : List UInt16) :
    (wordBytes big ws).length = 2 * ws.length := by
  induction ws with
  | nil => rfl
  | cons w ws ih =>
    rw [wordBytes, List.flatMap_cons, List.length_append, length_intBytes, ← wordBytes, ih,
      List.length_cons]
    omega

lemma wordBytes_words (big : Bool) (k : Nat) {bs : List UInt8} (h : bs.length = 2 * k) :
    wordBytes big (words big bs) = bs := by
  induction k, bs, h using pairs_induction with
  | nil => rfl
  | pair k x y bs h ih =>
    have hlt : intOfBytes big [x, y] < 256 ^ 2 := intOfBytes_lt big rfl
    have hv : (UInt16.ofNat (intOfBytes big [x, y])).toNat = intOfBytes big [x, y] := by
      rw [UInt16.toNat_ofNat']
      omega
    have hxy : intBytes big 2 (intOfBytes big [x, y]) = [x, y] := intBytes_intOfBytes big rfl
    rw [words, wordBytes, List.flatMap_cons, ← wordBytes, ih, hv, hxy]
    rfl

lemma words_wordBytes (big : Bool) (ws : List UInt16) : words big (wordBytes big ws) = ws := by
  induction ws with
  | nil => rfl
  | cons w ws ih =>
    rw [wordBytes, List.flatMap_cons, ← wordBytes]
    match hb : intBytes big 2 w.toNat, length_intBytes big 2 w.toNat with
    | [x, y], _ =>
      have hw : UInt16.ofNat (intOfBytes big [x, y]) = w := by
        rw [← hb, intOfBytes_intBytes big w.toNat_lt, UInt16.ofNat_toNat]
      rw [List.cons_append, List.cons_append, List.nil_append, words, hw, ih]

end SockLib
