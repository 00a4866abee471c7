import SockLib.Proofs.AddressValues
import SockLib.Proofs.Frames
import SockLib.Proofs.Operands
import SockLib.Proofs.SourceAddress

/-!
# Sockets leave addresses alone

The operations on sockets make addresses for themselves, and destroy them or return them. No
variable of the program has another value afterwards, unless a member was given it to fill.
-/

namespace SockLib

variable {pl : Platform}

namespace Addresses

variable {s t u : Addresses} {st : SockaddrStorage} {len : Nat}

variable (pl) in
/-- No pointer has become unsound, and every variable has the value it had. -/
def Undisturbed (s t : Addresses) : Prop :=
  Owning pl t ∧ ∀ x v, s.valueOf x = some v → t.valueOf x = some v

lemma Undisturbed.refl (h : Owning pl s) : Undisturbed pl s s := ⟨h, fun _ _ hv => hv⟩

lemma Undisturbed.trans (h : Undisturbed pl s t) (h' : Undisturbed pl t u) :
    Undisturbed pl s u :=
  ⟨h'.1, fun x v hv => h'.2 x v (h.2 x v hv)⟩

lemma Undisturbed.of_same (h : Owning pl s) (hheap : ∀ p, t.heap.get p = s.heap.get p)
    (hvars : ∀ x, t.vars.get x = s.vars.get x) : Undisturbed pl s t := by
  refine ⟨h.congr hheap hvars, fun x v hv => ?_⟩
  rw [valueOf_congr (hvars x) fun _ p _ _ => hheap p]
  exact hv

lemma valueOf_next (s : Addresses) : s.valueOf s.vars.next = none := valueOf_none s.vars.get_next

/-- A new variable is none of the old ones. -/
lemma values_of_make {v w : AddressValue} {x : Nat} (h : t.values = s.values.make w)
    (hv : s.valueOf x = some v) : t.valueOf x = some v := by
  have hne : x ≠ s.vars.next := by
    rintro rfl
    rw [valueOf_next] at hv
    cases hv
  have hx := congrFun (congrArg AddressValues.value h) x
  exact hx.trans ((Function.update_of_ne hne _ _).trans hv)

lemma ofStorage_undisturbed (hs : pl.LibraryWorks) (h : Owning pl s) :
    Prog.wp (ofStorage pl st len) (fun _ => Undisturbed pl s) (fun _ => Undisturbed pl s)
      (fun _ => True) s := by
  have hvalues : ∀ t, Owning pl t →
      ValueOp.step pl s.values (.ofStorage st len) = some t.values → Undisturbed pl s t := by
    intro t ht hstep
    refine ⟨ht, fun x v hv => ?_⟩
    simp only [ValueOp.step] at hstep
    split at hstep
    · exact values_of_make (Option.some.inj hstep).symm hv
    · have hx := congrFun (congrArg AddressValues.value (Option.some.inj hstep)) x
      exact hx.symm.trans hv
    · cases hstep
  apply Prog.wp_mono (Prog.wp_and (ofStorage_owning h st len) (ofStorage_yields hs h))
  · intro _ t ht
    exact hvalues t ht.1 ht.2
  · intro _ t ht
    exact hvalues t ht.1 ht.2
  · intro _ _
    trivial

/-! ### An address that is filled -/

variable (pl) in
/-- A variable holds a new object, and the others are as they were. -/
structure Replaced (x : Nat) (o : AddressObject) (s t : Addresses) : Prop where
  heap : t.heap = s.heap.push o
  vars : ∀ y, t.vars.get y =
    if y = x then some ⟨pl.domainOf o.family, some s.heap.next⟩ else s.vars.get y

section Replaced

variable {x y : Nat} {o : AddressObject}

lemma Replaced.holds (h : Replaced pl x o s t) : t.Holds pl x o :=
  ⟨_, s.heap.next, (h.vars x).trans (if_pos rfl), rfl, rfl, h.heap ▸ s.heap.get_push_self o⟩

lemma Replaced.valueOf_ne (h : Replaced pl x o s t) (hown : Owning pl s) (hy : y ≠ x) :
    t.valueOf y = s.valueOf y := by
  apply valueOf_congr ((h.vars y).trans (if_neg hy))
  intro b p hb hp
  rw [h.heap]
  exact push_get hown hb hp o

lemma Replaced.owning (h : Replaced pl x o s t) (hown : Owning pl s) : Owning pl t := by
  have hold : ∀ y b p, y ≠ x → t.vars.get y = some b → b.base = some p →
      s.vars.get y = some b ∧ p ≠ s.heap.next := by
    intro y b p hy hb hp
    rw [h.vars, if_neg hy] at hb
    obtain ⟨o', ho'⟩ := hown.live hb p hp
    exact ⟨hb, Store.ne_next ho'⟩
  have hself : ∀ b, t.vars.get x = some b →
      b = ⟨pl.domainOf o.family, some s.heap.next⟩ := by
    intro b hb
    rw [h.vars, if_pos rfl] at hb
    exact (Option.some.inj hb).symm
  constructor
  · intro y b p hb hp
    by_cases hy : y = x
    · subst hy
      obtain rfl := hself b hb
      obtain rfl := Option.some.inj hp
      exact ⟨o, h.heap ▸ s.heap.get_push_self o, rfl⟩
    · obtain ⟨hb', -⟩ := hold y b p hy hb hp
      obtain ⟨o', ho', hd⟩ := hown.target y b p hb' hp
      exact ⟨o', by rw [h.heap]; exact Store.get_push_of_some ho' o, hd⟩
  · intro y z b c p hb hc hp hp'
    by_cases hy : y = x
    · by_cases hz : z = x
      · rw [hy, hz]
      · obtain ⟨-, hne⟩ := hold z c p hz hc hp'
        subst hy
        obtain rfl := hself b hb
        exact absurd (Option.some.inj hp).symm hne
    · obtain ⟨hb', hne⟩ := hold y b p hy hb hp
      by_cases hz : z = x
      · subst hz
        obtain rfl := hself c hc
        exact absurd (Option.some.inj hp').symm hne
      · obtain ⟨hc', -⟩ := hold z c p hz hc hp'
        exact hown.unshared y z b c p hb' hc' hp hp'

/-- The end of `receive` with an address. -/
lemma replaceAddress_spec (hs : pl.LibraryWorks) {a : Address} (hx : s.vars.get x = some a)
    (hdec : decode pl st len = some (.ok o)) :
    ∃ t, replaceAddress pl x st len s = .ok () t ∧ Replaced pl x o s t := by
  obtain ⟨hfam, hmade⟩ := ofStorage_of_decode_ok (s := s) hs hdec
  have hx' := Store.get_push_of_some hx ⟨ssFamily pl st, some s.heap.next⟩
  have hnew := s.vars.get_push_self ⟨ssFamily pl st, some s.heap.next⟩
  have hput := Store.get_put hx' ⟨ssFamily pl st, some s.heap.next⟩
  have hwp : Prog.wp (replaceAddress pl x st len) (fun _ => Replaced pl x o s)
      (fun _ _ => False) (fun _ => False) s := by
    rw [replaceAddress, Prog.wp_bind]
    apply Prog.wp_of_eq_ok hmade
    refine (wp_moveAssign_destroy pl (by exact hx') (by exact hnew)).mpr ⟨rfl, fun y => ?_⟩
    rw [Store.erase_put, Store.get_erase, hput, hfam]
    by_cases hy : y = s.vars.next
    · rw [if_pos hy, hy, if_neg (Store.ne_next hx).symm, Store.get_next]
    · rw [if_neg hy, Store.get_push, if_neg hy]
  obtain ⟨_, t, ht, hr⟩ := Prog.exists_ok_of_wp hwp
  exact ⟨t, ht, hr⟩

end Replaced

end Addresses

namespace World

variable {s t : World} {x : Nat} {v : Socket} {fr : Frame} {st : SockaddrStorage} {len : Nat}

/-- Addresses are made, and otherwise looked at. -/
lemma undisturbed_steady (hs : pl.LibraryWorks) (a : Addresses) :
    Steady pl (fun s => Addresses.Undisturbed pl a s.addr) where
  called _ _ h := h
  made s st len h := by
    rw [wp_addresses]
    apply Prog.wp_mono (Addresses.ofStorage_undisturbed hs h.1)
    · intro _ t ht
      exact h.trans ht
    · intro _ t ht
      exact h.trans ht
    · intro _ _
      trivial

lemma bind_undisturbed (h : Owning pl s.addr) (x : Nat) (st : SockaddrStorage) (len : Nat)
    (answer : Except Int Unit) :
    Prog.wp (bind pl x st len answer) (fun _ t => Addresses.Undisturbed pl s.addr t.addr)
      (fun _ t => Addresses.Undisturbed pl s.addr t.addr) (fun _ => True) s := by
  apply wp_of_this
  intro v hx
  have hsame : ∀ t : World, t.addr = s.addr → Addresses.Undisturbed pl s.addr t.addr := by
    intro t ht
    rw [ht]
    exact .refl h
  apply Prog.wp_mono (bind_keeps hx len answer)
  · intro _ t ht
    exact hsame t ht
  · intro _ t ht
    exact hsame t ht
  · intro _ _
    trivial

/-- A member that is given no address to fill. -/
lemma member_undisturbed (hs : pl.LibraryWorks) (h : Owning pl s.addr) (x : Nat) (m : Member)
    (hm : m.fills = none) :
    Prog.wp (m.exec pl x) (fun _ t => Addresses.Undisturbed pl s.addr t.addr)
      (fun _ t => Addresses.Undisturbed pl s.addr t.addr) (fun _ => True) s := by
  cases hb : m.binds with
  | false =>
    apply member_steady (undisturbed_steady hs s.addr) (.refl h) x m hb
    intro y hy
    rw [hm] at hy
    cases hy
  | true =>
    cases m with
    | bind address len answer => exact bind_undisturbed h x address len answer
    | bindAddress fr address answer =>
      apply ofAddress_spec
      intro _ _ _ st _ _ _ _ len
      exact bind_undisturbed h x st len answer
    | _ => cases hb

/-- A destructor destroys the addresses that it has made. -/
lemma destroy_same (hx : s.socks.get x = some v) (hv : v.m_validFD = true) (name : NameAnswer) :
    Prog.wp (destroy pl x name)
      (fun _ t => (∀ p, t.addr.heap.get p = s.addr.heap.get p) ∧
        ∀ y, t.addr.vars.get y = s.addr.vars.get y) (fun _ _ => False) (fun _ => True) s := by
  cases hw : pl.windows with
  | true =>
    refine (wp_destroy_windows hw hx hv).mpr ⟨fun _ => trivial, fun _ => ?_⟩
    exact ⟨fun _ => rfl, fun _ => rfl⟩
  | false =>
    refine (wp_destroy_posix hw hx hv).mpr ⟨?_, fun _ _ => trivial⟩
    rintro st len rfl
    apply Addresses.ofStorage_made
    intro f o hf ho _
    have hvar := s.addr.vars.get_push_self ⟨ssFamily pl st, some s.addr.heap.next⟩
    have hheap := s.addr.heap.get_push_self o
    by_cases hd : v.m_domain = pl.domainOf .unix
    · rw [if_pos hd, Prog.wp_bind]
      obtain ⟨hget, -⟩ := erase_copy s.addr.heap o
      refine unlinkLocal_spec hw (by exact hvar) rfl (by exact hheap) s.addr.lib.leave_enter_enter
        (fun _ => trivial) (fun _ _ => trivial) ?_
      intro u _ _
      refine depart_spec hw (by exact hvar) rfl (by exact hget) ?_
      refine ⟨fun p => ?_, fun y => Store.get_erase_push _ _ y⟩
      have hcopy := Store.get_erase_push (s.addr.heap.push o) o p
      change ((((s.addr.heap.push o).push o).erase (s.addr.heap.push o).next).erase
        s.addr.heap.next).get p = _
      rw [Store.get_erase, hcopy, ← Store.get_erase, Store.get_erase_push]
    · rw [if_neg hd]
      refine depart_spec hw (by exact hvar) rfl (by exact hheap) ?_
      exact ⟨fun p => Store.get_erase_push _ _ p, fun y => Store.get_erase_push _ _ y⟩

end World

/-- The address that an operation is given to fill. -/
def SocketOp.fills : SocketOp → Option Nat
  | .member _ m => m.fills
  | _ => none

/-- Whatever a program does with its sockets, its addresses are what they were, but for the one
that a member is given to fill. -/
theorem step_undisturbed (hs : pl.LibraryWorks) {s t : World} {op : SocketOp}
    (h : Owning pl s.addr) (hstep : SocketOp.step pl s op = some t) (hop : op.fills = none) :
    Addresses.Undisturbed pl s.addr t.addr := by
  have hsame : ∀ l, Addresses.Undisturbed pl s.addr { s.addr with lib := l } := fun l =>
    .of_same h (fun _ => rfl) (fun _ => rfl)
  cases step_effect hstep with
  | created hfree hlib => exact hsame _
  | notCreated hl hcs => exact hsame _
  | accepted hx hi hd hfree hlib => exact hsame _
  | lost hx hi hd hfree hlib hl => exact hsame _
  | paired hfree0 hfree1 hne hcs => exact hsame _
  | @closed x v name t hx hv hc =>
    have hx' : (SocketOp.start s).socks.get x = some v := hx
    refine Prog.resume_of_wp (P := fun t => Addresses.Undisturbed pl s.addr t.addr)
      (F := fun _ => True) ?_ hstep
    apply Prog.wp_mono (World.destroy_same hx' hv name)
    · intro _ t ht
      exact .of_same h ht.1 ht.2
    · intro _ _ hno
      exact hno.elim
    · intro _ htrue
      exact htrue
  | @served x v m t hx hserved =>
    have hx' : (SocketOp.start s).socks.get x = some v := hx
    refine Prog.resume_of_wp (P := fun t => Addresses.Undisturbed pl s.addr t.addr)
      (F := fun _ => True) ?_ hstep
    rw [SocketOp.exec, Prog.wp_bind, World.wp_this hx']
    exact World.member_undisturbed hs (s := SocketOp.start s) h x m hop
  | _ => exact .refl h

end SockLib
