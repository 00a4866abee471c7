import SockLib.Proofs.AddressRules

/-!
# Users of the network library

Every address object is a user of the library for as long as it lives. The other users a
state has to have are a number that a program on addresses does not change.
-/

namespace SockLib

variable (pl : Platform)

namespace Library

/-- With automatic initialization there are at least `n` users, and there have never been
fewer than none. -/
def Covers (l : Library) (n : Nat) : Prop :=
  l.autoInitialize = true → n ≤ l.libraryUsers ∧ l.underflows = 0

variable {pl} {l : Library} {n : Nat}

lemma Covers.mono (h : l.Covers n) {m : Nat} (hm : m ≤ n) : l.Covers m := by
  intro hauto
  exact ⟨hm.trans (h hauto).1, (h hauto).2⟩

lemma Covers.enter (h : l.Covers n) : l.enter.Covers (n + 1) := by
  intro hauto
  rw [autoInitialize_enter] at hauto
  obtain ⟨hn, hu⟩ := h hauto
  simp [Library.enter, hauto, hn, hu]

lemma Covers.leave (h : l.Covers (n + 1)) : l.leave.Covers n := by
  intro hauto
  rw [autoInitialize_leave] at hauto
  obtain ⟨hn, hu⟩ := h hauto
  have hpos : l.libraryUsers ≠ 0 := by omega
  simp only [Library.leave, hauto, sizeDec, hpos, if_true, if_false]
  exact ⟨by omega, hu⟩

lemma SameUsers.covers {l' : Library} (h : l.SameUsers l') (hc : l.Covers n) : l'.Covers n := by
  intro hauto
  rw [h.auto] at hauto
  rw [h.users, h.underflows]
  exact hc hauto

/-- Where there is a user, the library has been started. -/
lemma Covers.not_startFails (h : l.Covers (n + 1)) : ¬l.StartFails pl := by
  rintro ⟨hauto, hzero, -⟩
  have hn := (h hauto).1
  omega

/-- A user that comes and goes leaves no trace when there is another one. -/
lemma Covers.leave_enter (h : l.Covers (n + 1)) : l.enter.leave = l := by
  by_cases hauto : l.autoInitialize = true
  · have hn := (h hauto).1
    obtain ⟨auto, users, startups, cleanups, underflows⟩ := l
    obtain rfl : auto = true := hauto
    have hpos : users ≠ 0 := Nat.ne_of_gt (Nat.lt_of_succ_le ((Nat.le_add_left 1 n).trans hn))
    simp [Library.enter, Library.leave, sizeDec, hpos]
  · simp [Library.enter, Library.leave, hauto]

@[simp] lemma leave_enter_enter (l : Library) : l.enter.enter.leave = l.enter := by
  by_cases hauto : l.autoInitialize = true
  · simp [Library.enter, Library.leave, sizeDec, hauto]
  · simp [Library.enter, Library.leave, hauto]

@[simp] lemma cleanups_enter (l : Library) : l.enter.cleanups = l.cleanups := by
  unfold Library.enter
  split <;> rfl

lemma users_of_cleanups_leave (h : l.leave.cleanups ≠ l.cleanups) : l.leave.libraryUsers = 0 := by
  unfold Library.leave at h ⊢
  split at h
  · rw [if_pos ‹_›]
    by_contra hne
    exact h (if_neg hne)
  · exact absurd rfl h

end Library

namespace Addresses

/-- There are users enough for the live objects and `k` others. -/
def Covered (s : Addresses) (k : Nat) : Prop := s.lib.Covers (s.heap.count + k)

/-- What a program on addresses keeps: the users of others are still there, and if the
library has been cleaned up there is no user at all. -/
structure Kept (s t : Addresses) : Prop where
  auto : t.lib.autoInitialize = s.lib.autoInitialize
  covered : ∀ k, s.Covered k → t.Covered k
  cleanups : t.lib.cleanups ≠ s.lib.cleanups → t.lib.libraryUsers = 0

variable {pl} {s : Addresses}

lemma Kept.refl (s : Addresses) : s.Kept s := ⟨rfl, fun _ h => h, fun h => absurd rfl h⟩

lemma Kept.vars {t : Addresses} (h : s.Kept t) (v : Store Address) : s.Kept { t with vars := v } :=
  ⟨h.auto, h.covered, h.cleanups⟩

lemma Covered.mono {j k : Nat} (h : s.Covered k) (hj : j ≤ k) : s.Covered j :=
  Library.Covers.mono h (Nat.add_le_add_left hj _)

@[simp] lemma count_push (h : Store AddressObject) (o : AddressObject) :
    (h.push o).count = h.count + 1 := Store.total_push _ h o

lemma count_erase {h : Store AddressObject} {p : Nat} {o : AddressObject} (hp : h.get p = some o) :
    (h.erase p).count + 1 = h.count := Store.total_erase _ hp

lemma count_push_erase (h : Store AddressObject) (o : AddressObject) :
    ((h.push o).erase h.next).count = h.count := by
  have hcount := count_erase (h.get_push_self o)
  rw [count_push] at hcount
  omega

/-- A new object brings its own user. -/
lemma kept_push (s : Addresses) (o : AddressObject) (v : Store Address) :
    s.Kept ⟨s.lib.enter, s.heap.push o, v⟩ := by
  refine ⟨by simp, fun k h => ?_, fun h => absurd (Library.cleanups_enter _) h⟩
  have he := Library.Covers.enter h
  rw [Covered, count_push, Nat.add_right_comm]
  exact he

/-- An object takes its user with it. -/
lemma kept_erase {p : Nat} {o : AddressObject} (hp : s.heap.get p = some o) (v : Store Address) :
    s.Kept ⟨s.lib.leave, s.heap.erase p, v⟩ := by
  refine ⟨by simp, fun k h => ?_, Library.users_of_cleanups_leave⟩
  apply Library.Covers.leave
  have hcount := count_erase hp
  apply Library.Covers.mono h
  change (s.heap.erase p).count + k + 1 ≤ s.heap.count + k
  omega

lemma kept_of_sameUsers {l : Library} (h : s.lib.SameUsers l) (v : Store Address) :
    s.Kept ⟨l, s.heap, v⟩ := by
  refine ⟨h.auto, fun k hc => h.covers hc, fun hne => ?_⟩
  exact h.users.trans (h.cleanups hne)

lemma newObject_kept (s : Addresses) (body : Option (Except Exn AddressObject)) :
    Prog.wp (newObject pl body) (fun _ => s.Kept) (fun _ => s.Kept) (fun _ => True) s := by
  apply newObject_spec pl
  · intro o _ _
    exact kept_push s o s.vars
  · intro _ e l hl
    exact kept_of_sameUsers hl s.vars
  · intro _ _
    trivial
  · intro _
    trivial

lemma destroyObject_kept (s : Addresses) (p : Nat) :
    Prog.wp (destroyObject pl p) (fun _ => s.Kept) (fun _ => s.Kept) (fun _ => True) s := by
  cases hp : s.heap.get p with
  | none => simp [destroyObject, hp]
  | some o =>
    rw [wp_destroyObject pl hp]
    exact ⟨fun _ => trivial, fun _ => kept_erase hp s.vars⟩

/-- Construction from a C structure makes one object, or nothing. -/
lemma ofStorage_spec {Q : Nat → Addresses → Prop} {E : Exn → Addresses → Prop} {F : Fault → Prop}
    {st : SockaddrStorage} {len : Nat}
    (hok : ∀ f o, pl.familyOf (ssFamily pl st) = some f →
      AddressObject.ofStorage pl f st len = some (.ok o) → ¬s.lib.StartFails pl →
      Q s.vars.next ⟨s.lib.enter, s.heap.push o,
        s.vars.push ⟨ssFamily pl st, some s.heap.next⟩⟩)
    (hfail : ∀ e l v, s.lib.SameUsers l → E e ⟨l, s.heap, v⟩)
    (hterm : ∀ l : Library, l.CleanupFails pl → F .terminate)
    (hbounds : ∀ f, AddressObject.ofStorage pl f st len = none → F .outOfBounds) :
    Prog.wp (ofStorage pl st len) Q E F s := by
  rw [ofStorage, wp_construct]
  apply assign_spec pl (s.vars.get_push_self _)
  · intro p hp
    cases hp
  · intro f o hf ho hs
    rw [Store.push_put_next]
    exact hok f o hf ho hs
  · intro _ e l hl
    exact hfail e l _ hl
  · exact hterm
  · exact hbounds

/-- Where exceptions and faults are of no interest, only the new address is. -/
lemma ofStorage_made {Q : Nat → Addresses → Prop} {st : SockaddrStorage} {len : Nat}
    (hok : ∀ f o, pl.familyOf (ssFamily pl st) = some f →
      AddressObject.ofStorage pl f st len = some (.ok o) → ¬s.lib.StartFails pl →
      Q s.vars.next ⟨s.lib.enter, s.heap.push o,
        s.vars.push ⟨ssFamily pl st, some s.heap.next⟩⟩) :
    Prog.wp (ofStorage pl st len) Q (fun _ _ => True) (fun _ => True) s := by
  apply ofStorage_spec hok
  · intro _ _ _ _
    trivial
  · intro _ _
    trivial
  · intro _ _
    trivial

lemma ofStorage_kept (s : Addresses) (st : SockaddrStorage) (len : Nat) :
    Prog.wp (ofStorage pl st len) (fun _ => s.Kept) (fun _ => s.Kept) (fun _ => True) s := by
  apply ofStorage_spec
  · intro f o _ _ _
    exact kept_push s o _
  · intro e l v hl
    exact kept_of_sameUsers hl v
  · intro _ _
    trivial
  · intro _ _
    trivial

end Addresses

end SockLib
