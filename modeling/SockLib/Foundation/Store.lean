import Mathlib.Tactic.Common

/-!
# Stores of objects with identities

A store hands out a new identity for every object put into it and never uses one again,
so an identity stands for one object, alive or not. `total` adds up a weight over the
live objects; it is how objects are counted.
-/

namespace SockLib

structure Store (α : Type) where
  slots : List (Option α)
deriving DecidableEq

namespace Store

variable {α : Type}

def empty : Store α := ⟨[]⟩

/-- The identity the next object gets. -/
def next (s : Store α) : Nat := s.slots.length

def get (s : Store α) (i : Nat) : Option α := s.slots[i]?.join

def push (s : Store α) (a : α) : Store α := ⟨s.slots ++ [some a]⟩

def put (s : Store α) (i : Nat) (a : α) : Store α := ⟨s.slots.set i (some a)⟩

def erase (s : Store α) (i : Nat) : Store α := ⟨s.slots.set i none⟩

/-- Change an object in place, if it is there. -/
def update (s : Store α) (i : Nat) (f : α → α) : Store α :=
  match s.get i with
  | some a => s.put i (f a)
  | none => s

/-- The first object with a property. -/
def find (s : Store α) (p : α → Bool) : Option Nat := s.slots.findIdx? (fun o => o.any p)

def weight (w : α → Nat) : Option α → Nat
  | some a => w a
  | none => 0

/-- The sum of a weight over the live objects. -/
def total (w : α → Nat) (s : Store α) : Nat := s.slots.foldr (fun o n => weight w o + n) 0

/-- The number of live objects. -/
def count (s : Store α) : Nat := s.total (fun _ => 1)

lemma lt_next {s : Store α} {i : Nat} {a : α} (h : s.get i = some a) : i < s.next := by
  by_contra hn
  have hnone : s.slots[i]? = none := List.getElem?_eq_none (Nat.le_of_not_lt hn)
  rw [get, hnone] at h
  cases h

lemma ne_next {s : Store α} {i : Nat} {a : α} (h : s.get i = some a) : i ≠ s.next :=
  Nat.ne_of_lt (lt_next h)

lemma get_next (s : Store α) : s.get s.next = none := by
  simp [get, next]

lemma get_push (s : Store α) (a : α) (i : Nat) :
    (s.push a).get i = if i = s.next then some a else s.get i := by
  unfold get push next
  by_cases h : i = s.slots.length
  · simp [h]
  · rw [List.getElem?_append, if_neg h]
    by_cases hlt : i < s.slots.length
    · simp [hlt]
    · have hge : s.slots.length < i := by omega
      have hout : [some a][i - s.slots.length]? = none := by
        apply List.getElem?_eq_none
        simp only [List.length_singleton]
        omega
      simp [hlt, hout]

@[simp] lemma get_push_self (s : Store α) (a : α) : (s.push a).get s.next = some a := by
  simp [get_push]

lemma get_push_of_some {s : Store α} {i : Nat} {b : α} (h : s.get i = some b) (a : α) :
    (s.push a).get i = some b := by
  rw [get_push, if_neg (ne_next h), h]

lemma get_put {s : Store α} {i : Nat} {b : α} (h : s.get i = some b) (a : α) (j : Nat) :
    (s.put i a).get j = if j = i then some a else s.get j := by
  have hlt := lt_next h
  unfold get put
  rw [List.getElem?_set]
  by_cases hj : j = i
  · subst hj
    simp [show j < s.slots.length from hlt]
  · simp [hj, Ne.symm hj]

/-- What is found before an update is found after it, if with another value. -/
lemma exists_get_put {s : Store α} {i j : Nat} {b c : α} (hi : s.get i = some b)
    (hj : s.get j = some c) (a : α) : ∃ d, (s.put i a).get j = some d := by
  have hput := get_put hi a j
  by_cases h : j = i
  · exact ⟨a, hput.trans (if_pos h)⟩
  · exact ⟨c, (hput.trans (if_neg h)).trans hj⟩

lemma get_erase (s : Store α) (i j : Nat) :
    (s.erase i).get j = if j = i then none else s.get j := by
  unfold get erase
  rw [List.getElem?_set]
  by_cases hj : j = i
  · subst hj
    by_cases hlt : j < s.slots.length <;> simp [hlt]
  · simp [hj, Ne.symm hj]

@[simp] lemma get_erase_self (s : Store α) (i : Nat) : (s.erase i).get i = none := by
  simp [get_erase]

/-- An object that has come and gone leaves no trace. -/
lemma get_erase_push (s : Store α) (a : α) (i : Nat) :
    ((s.push a).erase s.next).get i = s.get i := by
  rw [get_erase]
  split
  · next h => rw [h, get_next]
  · next h => rw [get_push, if_neg h]

@[simp] lemma put_put (s : Store α) (i : Nat) (a b : α) : (s.put i a).put i b = s.put i b := by
  simp [put, List.set_set]

@[simp] lemma push_put_next (s : Store α) (a b : α) : (s.push a).put s.next b = s.push b := by
  simp [push, put, next]

lemma get_update (s : Store α) (i : Nat) (f : α → α) (j : Nat) :
    (s.update i f).get j = if j = i then (s.get j).map f else s.get j := by
  unfold update
  cases hi : s.get i with
  | none =>
    by_cases hj : j = i
    · subst hj
      simp [hi]
    · simp [hj]
  | some a =>
    rw [get_put hi]
    by_cases hj : j = i
    · subst hj
      simp [hi]
    · simp [hj]

lemma exists_of_find {s : Store α} {p : α → Bool} {i : Nat} (h : s.find p = some i) :
    ∃ a, s.get i = some a ∧ p a = true := by
  obtain ⟨hlt, hp, -⟩ := List.findIdx?_eq_some_iff_getElem.mp h
  cases ha : s.slots[i] with
  | none =>
    rw [ha] at hp
    cases hp
  | some a =>
    rw [ha] at hp
    exact ⟨a, by rw [get, List.getElem?_eq_getElem hlt, ha]; rfl, hp⟩

lemma not_of_find_none {s : Store α} {p : α → Bool} (h : s.find p = none) {i : Nat} {a : α}
    (ha : s.get i = some a) : p a = false := by
  have hi : s.slots[i]? = some (some a) := Option.join_eq_some_iff.mp ha
  have hall := List.findIdx?_eq_none_iff.mp h (some a) (List.mem_of_getElem? hi)
  simpa using hall

lemma find_push (s : Store α) (a : α) (p : α → Bool) :
    (s.push a).find p = (s.find p).or (if p a = true then some s.next else none) := by
  unfold find push next
  rw [List.findIdx?_append]
  by_cases h : p a = true <;> simp [h]

/-- An object that is found as before may be changed. -/
lemma find_put {s : Store α} {i : Nat} {a b : α} {p : α → Bool} (h : s.get i = some b)
    (hp : p a = p b) : (s.put i a).find p = s.find p := by
  have hi : s.slots[i]? = some (some b) := Option.join_eq_some_iff.mp h
  have hlt : i < s.slots.length := lt_next h
  have hsame : (s.slots.set i (some a)).map (fun o => o.any p) =
      s.slots.map (fun o => o.any p) := by
    apply List.ext_getElem?
    intro j
    rw [List.getElem?_map, List.getElem?_map, List.getElem?_set]
    split
    · next hj =>
      rw [← hj, hi]
      simp [hp]
    · rfl
  have hmap : ∀ l : List (Option α), l.findIdx? (fun o => o.any p) =
      (l.map (fun o => o.any p)).findIdx? id := by
    intro l
    rw [List.findIdx?_map]
    rfl
  unfold find put
  rw [hmap, hmap, hsame]

@[simp] lemma erase_put (s : Store α) (i : Nat) (a : α) : (s.put i a).erase i = s.erase i := by
  simp [put, erase, List.set_set]

/-- Writing back what is there changes nothing. -/
lemma put_self {s : Store α} {i : Nat} {a : α} (h : s.get i = some a) : s.put i a = s := by
  have hi : s.slots[i]? = some (some a) := Option.join_eq_some_iff.mp h
  have hset : s.slots.set i (some a) = s.slots := by
    apply List.ext_getElem?
    intro j
    rw [List.getElem?_set]
    by_cases hj : i = j
    · subst hj
      have hlt : i < s.slots.length := lt_next h
      rw [if_pos rfl, hi, if_pos hlt]
    · rw [if_neg hj]
  rw [put, hset]

@[simp] lemma next_push (s : Store α) (a : α) : (s.push a).next = s.next + 1 := by
  simp [next, push]

@[simp] lemma next_put (s : Store α) (i : Nat) (a : α) : (s.put i a).next = s.next := by
  simp [next, put]

@[simp] lemma next_erase (s : Store α) (i : Nat) : (s.erase i).next = s.next := by
  simp [next, erase]

lemma foldr_weight (w : α → Nat) (l : List (Option α)) (k : Nat) :
    l.foldr (fun o n => weight w o + n) k = l.foldr (fun o n => weight w o + n) 0 + k := by
  induction l with
  | nil => simp
  | cons o l ih =>
    rw [List.foldr_cons, List.foldr_cons, ih]
    omega

@[simp] lemma total_push (w : α → Nat) (s : Store α) (a : α) :
    (s.push a).total w = s.total w + w a := by
  unfold total push
  rw [List.foldr_append, foldr_weight]
  rfl

lemma total_set (w : α → Nat) {s : Store α} {i : Nat} {b : α} (h : s.get i = some b)
    (o : Option α) :
    total w ⟨s.slots.set i o⟩ + w b = s.total w + weight w o := by
  obtain ⟨slots⟩ := s
  have hi : slots[i]? = some (some b) := Option.join_eq_some_iff.mp h
  clear h
  unfold total
  induction slots generalizing i with
  | nil => cases hi
  | cons c slots ih =>
    cases i with
    | zero =>
      obtain rfl : c = some b := Option.some.inj hi
      simp only [List.set_cons_zero, List.foldr_cons, weight]
      omega
    | succ i =>
      have hrest := ih hi
      simp only [List.set_cons_succ, List.foldr_cons] at hrest ⊢
      omega

/-- Overwriting an object exchanges its weight for the new one. -/
lemma total_put (w : α → Nat) {s : Store α} {i : Nat} {b : α} (h : s.get i = some b) (a : α) :
    (s.put i a).total w + w b = s.total w + w a := total_set w h (some a)

/-- Removing an object takes its weight away. -/
lemma total_erase (w : α → Nat) {s : Store α} {i : Nat} {b : α} (h : s.get i = some b) :
    (s.erase i).total w + w b = s.total w := total_set w h none

/-- Exchanging two objects changes no sum. -/
lemma total_exchange (w : α → Nat) {s : Store α} {x y : Nat} {a b : α} (hx : s.get x = some a)
    (hy : s.get y = some b) : ((s.put x b).put y a).total w = s.total w := by
  have hy' : (s.put x b).get y = some b := by
    rw [get_put hx]
    split
    · rfl
    · exact hy
  have h₁ := total_put w hx b
  have h₂ := total_put w hy' a
  omega

/-- Only the live objects count, not the place where they are. -/
lemma total_congr (w : α → Nat) {s t : Store α} (h : ∀ i, s.get i = t.get i) :
    s.total w = t.total w := by
  obtain ⟨l⟩ := s
  obtain ⟨m⟩ := t
  have hempty : ∀ m : List (Option α), (∀ i : Nat, m[i]?.join = none) →
      m.foldr (fun o n => weight w o + n) 0 = 0 := by
    intro m hm
    induction m with
    | nil => rfl
    | cons o m ih =>
      obtain rfl : o = none := hm 0
      rw [List.foldr_cons, ih (fun i => hm (i + 1))]
      rfl
  unfold total
  simp only [get] at h ⊢
  induction l generalizing m with
  | nil => rw [hempty m fun i => (h i).symm, List.foldr_nil]
  | cons o l ih =>
    cases m with
    | nil => rw [hempty (o :: l) h, List.foldr_nil]
    | cons o' m =>
      obtain rfl : o = o' := h 0
      rw [List.foldr_cons, List.foldr_cons, ih m fun i => h (i + 1)]

lemma le_total (w : α → Nat) {s : Store α} {i : Nat} {b : α} (h : s.get i = some b) :
    w b ≤ s.total w := by
  have he := total_erase w h
  omega

end Store

end SockLib
