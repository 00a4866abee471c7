import SockLib.Model.NumericHost
import SockLib.Proofs.Descriptors

/-!
# Linear ownership of descriptors

Every descriptor the library has obtained is owned by one object, handed over to the caller
once, or closed once. This holds in a run as long as no descriptor is released by an object
that does not own it.
-/

namespace SockLib

/-- The object owns this descriptor. -/
def OwnedBy (s : World) (x : Nat) (d : Descriptor) : Prop :=
  d.isOpen = true ∧ Owner s.socks x d.number

/-- Each descriptor is in one of the three states, and each object with `m_validFD` owns one. -/
structure LinearOwnership (s : World) : Prop where
  fate : ∀ i d, s.kernel.descs.get i = some d →
    ((∃ x, ∀ y, OwnedBy s y d ↔ y = x) ∧ d.handed = 0 ∧ d.closes = 0) ∨
    ((∀ x, ¬OwnedBy s x d) ∧ d.handed = 1 ∧ d.closes = 0) ∨
    ((∀ x, ¬OwnedBy s x d) ∧ d.handed = 0 ∧ d.closes = 1)
  valid : ∀ x v, s.socks.get x = some v → v.m_validFD = true →
    ∃ i d, s.kernel.descs.get i = some d ∧ OwnedBy s x d
  leftover : (∀ x, s.socks.get x = none) → ∀ i d, s.kernel.descs.get i = some d →
    d.handed = 1 ∨ d.closes = 1

/-- The condition on a single operation: a descriptor is released by an object that owns it,
or the number returned is that of no open descriptor of the library. -/
def ReleasesOwn (s : World) : ProgramOp → Prop
  | .library (.socketFD x true) => ∀ v, s.socks.get x = some v →
    v.m_validFD = true ∨ s.kernel.lookup v.m_sockFD = none
  | _ => True

/-- What has become of a descriptor. -/
inductive Fate (s : World) (d : Descriptor) : Prop where
  | owned (hopen : d.isOpen = true) (hn : Owned s.socks d.number) (hh : d.handed = 0)
      (hc : d.closes = 0)
  | handedOver (hn : d.isOpen = true → ¬Owned s.socks d.number) (hh : d.handed = 1)
      (hc : d.closes = 0)
  | closed (hopen : d.isOpen = false) (hh : d.handed = 0) (hc : d.closes = 1)

def unclosed (d : Descriptor) : Nat := if d.closes = 0 then 1 else 0

/-- The invariant. The library has a user for every descriptor that it has not closed. -/
structure Linear (s : World) : Prop extends Exclusive s where
  fate : ∀ i d, s.kernel.descs.get i = some d → Fate s d
  users : s.addr.Covered (s.kernel.descs.total unclosed)

namespace Linear

variable {pl : Platform} {s t : World} {op : SocketOp}

lemma initial (b : Bool) (files : List (List UInt8)) : Linear (World.initial b files) := by
  refine ⟨Exclusive.initial b files, fun i d hd => ?_, fun _ => ⟨Nat.le_refl 0, rfl⟩⟩
  cases hd

/-- A descriptor that is open has not been closed by the library. -/
lemma closes_of_open (h : Linear s) {i : Nat} {d : Descriptor}
    (hd : s.kernel.descs.get i = some d) (hopen : d.isOpen = true) : d.closes = 0 := by
  cases h.fate i d hd with
  | owned _ _ _ hc => exact hc
  | handedOver _ _ hc => exact hc
  | closed hclosed _ _ =>
    rw [hopen] at hclosed
    cases hclosed

/-- Where a descriptor is open, the library has been started. -/
lemma not_startFails (h : Linear s) {i : Nat} {d : Descriptor}
    (hd : s.kernel.descs.get i = some d) (hopen : d.isOpen = true) :
    ¬s.addr.lib.StartFails pl := by
  have hweight := Store.le_total unclosed hd
  rw [unclosed, if_pos (h.closes_of_open hd hopen)] at hweight
  have hone : s.addr.Covered 1 := h.users.mono hweight
  exact Library.Covers.not_startFails (n := s.addr.heap.count) hone

lemma fate_opened (h : Linear s) {n : Int} {localPath : Option (List UInt8)}
    (ho : Opened n localPath s t) : ∀ i d, t.kernel.descs.get i = some d → Fate t d := by
  intro i d hd
  have howned := ho.owned
  rw [ho.descs, Store.get_push] at hd
  have hne := fun j e => Kernel.number_ne_of_lookup ho.free (i := j) (d := e)
  split at hd
  · cases hd
    exact .owned rfl ((howned n).mpr (Or.inr rfl)) rfl rfl
  · have hfate := h.fate i d hd
    grind [Fate]

lemma users_opened (h : Linear s) {n : Int} {localPath : Option (List UInt8)}
    (ho : Opened n localPath s t) : t.addr.Covered (t.kernel.descs.total unclosed) := by
  rw [ho.descs, Store.total_push]
  exact ho.addr _ h.users

lemma opened (h : Linear s) {n : Int} {localPath : Option (List UInt8)}
    (ho : Opened n localPath s t) (hsole : Sole t.socks) : Linear t :=
  ⟨h.toExclusive.opened ho hsole, h.fate_opened ho, h.users_opened ho⟩

/-- What becomes of each descriptor in a change. -/
lemma fate_change (h : Linear s) (hc : Change pl s t) :
    ∀ i d, t.kernel.descs.get i = some d → Fate t d := by
  intro i d hd
  cases hc with
  | kept howned _ hkernel =>
    obtain ⟨e, he, hopen, hnum, hh, hcl⟩ : ∃ e, s.kernel.descs.get i = some e ∧
        d.isOpen = e.isOpen ∧ d.number = e.number ∧ d.handed = e.handed ∧ d.closes = e.closes := by
      rcases hkernel with ⟨hdescs, -⟩ | ⟨j, e, p, -, he, -, -, hdescs, -⟩
      · rw [hdescs] at hd
        exact ⟨d, hd, rfl, rfl, rfl, rfl⟩
      · have hput := Store.get_put he { e with localPath := some p, boundPath := some p } i
        grind
    have hfate := h.fate i e he
    grind [Fate]
  | opened ho => exact h.fate_opened ho i d hd
  | @lost j e n localPath he hopen _ hlib _ _ _ => exact absurd hlib (h.not_startFails he hopen)
  | @released n hn howned _ hdescs _ =>
    obtain ⟨j, e, hl, he, hopen, hnum⟩ := h.lookup hn
    rw [hdescs, Kernel.get_hand hl] at hd
    have hfate := h.fate j e he
    have hnumbers := h.numbers
    split at hd
    · subst i
      rw [he] at hd
      cases hd
      grind [Fate]
    · have hfate' := h.fate i d hd
      grind [Fate]
  | @closed n path hn howned _ hdescs _ =>
    obtain ⟨j, e, hl, he, hopen, hnum⟩ := h.lookup hn
    rw [hdescs, Kernel.get_close hl] at hd
    have hfate := h.fate j e he
    have hnumbers := h.numbers
    split at hd
    · subst i
      rw [he] at hd
      cases hd
      grind [Fate]
    · have hfate' := h.fate i d hd
      grind [Fate]

/-- Users come and go with the descriptors. -/
lemma users_change (h : Linear s) (hc : Change pl s t) :
    t.addr.Covered (t.kernel.descs.total unclosed) := by
  cases hc with
  | kept _ haddr hkernel =>
    rcases hkernel with ⟨hdescs, -⟩ | ⟨j, e, p, -, he, -, -, hdescs, -⟩
    · rw [hdescs]
      exact haddr _ h.users
    · have htotal := Store.total_put unclosed he
        { e with localPath := some p, boundPath := some p }
      apply haddr
      apply h.users.mono
      rw [hdescs]
      simp only [unclosed] at htotal ⊢
      omega
  | opened ho => exact h.users_opened ho
  | lost he hopen _ hlib _ _ _ => exact absurd hlib (h.not_startFails he hopen)
  | released hn _ haddr hdescs _ =>
    obtain ⟨j, e, hl, he, -, -⟩ := h.lookup hn
    have htotal := Store.total_put unclosed he { e with handed := e.handed + 1 }
    rw [haddr, hdescs, Kernel.descs_hand_of_get hl he]
    apply h.users.mono
    simp only [unclosed] at htotal ⊢
    omega
  | closed hn _ haddr hdescs _ =>
    obtain ⟨j, e, hl, he, hopen, -⟩ := h.lookup hn
    have hcl := h.closes_of_open he hopen
    have htotal := Store.total_put unclosed he { e with isOpen := false, closes := e.closes + 1 }
    rw [hdescs, Kernel.descs_close_of_get hl he]
    apply haddr
    apply h.users.mono
    simp only [unclosed, hcl, if_true, Nat.zero_add, Nat.one_ne_zero, if_false] at htotal ⊢
    omega

lemma change (h : Linear s) (hc : Change pl s t) (hsole : Sole t.socks) : Linear t :=
  ⟨h.toExclusive.change hc hsole, h.fate_change hc, h.users_change hc⟩

/-- An operation of the library that meets its condition keeps the invariant. -/
lemma effect (h : Linear s) (hg : ReleasesOwn s (.library op)) (he : Effect pl s op t) :
    Linear t := by
  obtain ⟨hsole, hc | ⟨u, n, m, hsu, hut, hu⟩ | hstray⟩ := he.changes h.toExclusive
  · exact h.change hc hsole
  · exact (h.opened hsu hu).opened hut hsole
  · obtain ⟨x, v, i, rfl, hx, hv, hl, -⟩ := hstray
    rcases hg v hx with hvalid | hnone
    · rw [hv] at hvalid
      cases hvalid
    · rw [hl] at hnone
      cases hnone

/-- The caller closes what has been handed over. -/
lemma callerClose (h : Linear s) {n : Int} {k : Kernel} (hk : s.kernel.callerClose n = some k) :
    Linear { s with kernel := k } := by
  obtain ⟨i, hl, hk⟩ := Option.bind_eq_some_iff.mp hk
  obtain ⟨d, hd, hk⟩ := Option.bind_eq_some_iff.mp hk
  by_cases hh : 0 < d.handed
  · rw [if_pos hh] at hk
    obtain rfl := Option.some.inj hk
    obtain ⟨d', hd', hopen, hnum⟩ := Kernel.exists_of_lookup hl
    obtain rfl : d = d' := Option.some.inj (hd.symm.trans hd')
    have hfate := h.fate i d hd
    have hget := Store.get_update s.kernel.descs i (fun d => { d with isOpen := false })
    have hnumbers := h.numbers
    refine ⟨?_, ?_, ?_⟩
    · have hsole := h.sole
      have hheld := h.held
      constructor <;> grind [Fate]
    · intro j e he
      have hfate' := h.fate j
      grind [Fate]
    · have htotal := Store.total_put unclosed hd { d with isOpen := false }
      apply h.users.mono
      simp only [Store.update, hd, unclosed] at htotal ⊢
      omega
  · rw [if_neg hh] at hk
    cases hk

lemma step (h : Linear s) {op : ProgramOp} (hg : ReleasesOwn s op)
    (hs : ProgramOp.step pl s op = some t) : Linear t := by
  cases op with
  | library op => exact h.effect hg (step_effect hs)
  | close n =>
    obtain ⟨k, hk, rfl⟩ := Option.map_eq_some_iff.mp hs
    exact h.callerClose hk

/-- The invariant gives each descriptor exactly one of the three states. -/
lemma linearOwnership (h : Linear s) : LinearOwnership s := by
  have hfate : ∀ i d, s.kernel.descs.get i = some d →
      ((∃ x, ∀ y, OwnedBy s y d ↔ y = x) ∧ d.handed = 0 ∧ d.closes = 0) ∨
      ((∀ x, ¬OwnedBy s x d) ∧ d.handed = 1 ∧ d.closes = 0) ∨
      ((∀ x, ¬OwnedBy s x d) ∧ d.handed = 0 ∧ d.closes = 1) := by
    intro i d hd
    cases h.fate i d hd with
    | owned hopen hn hh hc =>
      obtain ⟨x, hx⟩ := hn
      refine Or.inl ⟨⟨x, fun y => ⟨fun hy => h.sole y x _ hy.2 hx, ?_⟩⟩, hh, hc⟩
      rintro rfl
      exact ⟨hopen, hx⟩
    | handedOver hn hh hc => exact Or.inr (Or.inl ⟨fun x hx => hn hx.1 ⟨x, hx.2⟩, hh, hc⟩)
    | closed hopen hh hc =>
      refine Or.inr (Or.inr ⟨fun x hx => ?_, hh, hc⟩)
      have htrue := hx.1
      rw [hopen] at htrue
      cases htrue
  refine ⟨hfate, ?_, ?_⟩
  · intro x v hx hv
    obtain ⟨i, d, hd, hopen, hnum⟩ := h.held v.m_sockFD ⟨x, v, hx, hv, rfl⟩
    exact ⟨i, d, hd, hopen, v, hx, hv, hnum.symm⟩
  · intro hempty i d hd
    rcases hfate i d hd with ⟨⟨x, hx⟩, -⟩ | ⟨-, hh, -⟩ | ⟨-, -, hc⟩
    · obtain ⟨-, v, hv, -⟩ := (hx x).mpr rfl
      rw [hempty x] at hv
      cases hv
    · exact Or.inl hh
    · exact Or.inr hc

/-- When an object releases a descriptor that is not its own, this one is handed over a
second time, or while another object owns it. -/
lemma breaks (h : Linear s) {op : ProgramOp} (hg : ¬ReleasesOwn s op)
    (hs : ProgramOp.step pl s op = some t) : ¬LinearOwnership t := by
  cases op with
  | close n => exact absurd trivial hg
  | library op =>
    cases step_effect hs with
    | @released x v hx =>
      intro hlinear
      apply hg
      intro v' hx'
      obtain rfl : v = v' := Option.some.inj (hx.symm.trans hx')
      by_contra hn
      obtain ⟨hv, hl⟩ := not_or.mp hn
      obtain ⟨i, hi⟩ := Option.ne_none_iff_exists'.mp hl
      obtain ⟨d, hd, hopen, hnum⟩ := Kernel.exists_of_lookup hi
      have howned : Owned (s.socks.put x { v with m_validFD := false }) d.number ↔
          Owned s.socks d.number :=
        owned_without_invalid hx (Bool.eq_false_iff.mpr hv) fun _ _ => owner_disown hx rfl
      have hget : ((SocketOp.start s).kernel.hand v.m_sockFD).descs.get i =
          some { d with handed := d.handed + 1 } := by
        have hdescs : ((SocketOp.start s).kernel.hand v.m_sockFD).descs = _ :=
          Kernel.descs_hand s.kernel [] v.m_sockFD
        rw [hdescs, Kernel.get_hand hi, if_pos rfl, hd]
        rfl
      have hafter := hlinear.fate i _ hget
      cases h.fate i d hd with
      | owned _ hn hh _ =>
        obtain ⟨y, hy⟩ := howned.mpr hn
        rcases hafter with ⟨-, hh', -⟩ | ⟨hno, -⟩ | ⟨-, hh', -⟩
        · cases hh'
        · exact hno y ⟨hopen, hy⟩
        · cases hh'
      | handedOver _ hh _ =>
        rcases hafter with ⟨-, hh', -⟩ | ⟨-, hh', -⟩ | ⟨-, hh', -⟩ <;> simp [hh] at hh'
      | closed hclosed _ _ =>
        rw [hopen] at hclosed
        cases hclosed
    | exchanged hop _ _ _ => rcases hop with rfl | ⟨junk, rfl⟩ <;> exact absurd trivial hg
    | _ => exact absurd trivial hg

end Linear

/-- Ownership is linear in every state of a run exactly when every descriptor is released by
the object that owns it. -/
theorem linear_ownership_iff (pl : Platform) (autoInitialize : Bool) (files : List (List UInt8))
    (ops : List ProgramOp) :
    Along (ProgramOp.step pl) LinearOwnership (World.initial autoInitialize files) ops ↔
      Guarded (ProgramOp.step pl) ReleasesOwn (World.initial autoInitialize files) ops := by
  apply along_iff_guarded (I := Linear)
  · intro s h
    exact h.linearOwnership
  · intro s op t h hg hs
    exact h.step hg hs
  · intro s op t h hg hs
    exact h.breaks hg hs
  · exact Linear.initial autoInitialize files

/-- An object that has released its descriptor releases it again when it is asked to. -/
theorem not_linear_ownership : ¬∀ ops : List ProgramOp,
    Along (ProgramOp.step linuxHost) LinearOwnership (World.initial true []) ops := by
  intro h
  have hlast := (h [.library (.create 2 1 0 (.ok 3)), .library (.socketFD 0 true),
    .library (.socketFD 0 true)]).last rfl
  rcases hlast.fate 0 { number := 3, handed := 2 } rfl with ⟨-, hh, -⟩ | ⟨-, hh, -⟩ | ⟨-, hh, -⟩
  · cases hh
  · cases hh
  · cases hh

end SockLib
