import SockLib.Abstract.AddressValues
import SockLib.Foundation.Refinement
import SockLib.Proofs.AssignFailure

/-!
# Addresses behave as values

The operations of `sks::address` work with pointers, copies through C structures and a
library counter. As long as no object is left without a successor, all they do is what the
operations on values do, and every question about an address is answered from its value.
-/

namespace SockLib

/-- What an operation is once the locals of its casts are forgotten. -/
def AddressOp.meaning : AddressOp → ValueOp
  | .default => .default
  | .ofString addrstr d => .ofString addrstr d
  | .ofStorage st len => .ofStorage st len
  | .ofBase _ o => .ofBase o
  | .copy _ y => .copy y
  | .move y => .move y
  | .copyAssign _ x y => .copyAssign x y
  | .moveAssign x y => .moveAssign x y
  | .assign x st len => .assign x st len
  | .destroy x => .destroy x

namespace Addresses

def valueOf (s : Addresses) (x : Nat) : Option AddressValue :=
  (s.vars.get x).map fun a =>
    match a.base.bind s.heap.get with
    | some o => .set o
    | none => .blank a.m_domain

def values (s : Addresses) : AddressValues := ⟨s.vars.next, s.valueOf⟩

variable {pl : Platform} {s s' : Addresses} {x y : Nat} {a b : Address} {o : AddressObject}

lemma valueOf_none (hx : s.vars.get x = none) : s.valueOf x = none := by
  rw [valueOf, hx, Option.map_none]

lemma valueOf_blank (hx : s.vars.get x = some a) (hb : a.base = none) :
    s.valueOf x = some (.blank a.m_domain) := by
  simp [valueOf, hx, hb]

lemma valueOf_set {p : Nat} (hx : s.vars.get x = some a) (hp : a.base = some p)
    (ho : s.heap.get p = some o) : s.valueOf x = some (.set o) := by
  simp [valueOf, hx, hp, ho]

lemma exists_of_valueOf_set (h : s.valueOf x = some (.set o)) :
    ∃ a p, s.vars.get x = some a ∧ a.base = some p ∧ s.heap.get p = some o := by
  obtain ⟨a, ha, hv⟩ := Option.map_eq_some_iff.mp h
  split at hv
  · next o' ho' =>
    obtain ⟨p, hp, ho⟩ := Option.bind_eq_some_iff.mp ho'
    cases hv
    exact ⟨a, p, ha, hp, ho⟩
  · cases hv

lemma Holds.valueOf (h : s.Holds pl x o) : s.valueOf x = some (.set o) := by
  obtain ⟨a, p, hx, -, hp, ho⟩ := h
  exact valueOf_set hx hp ho

/-- A live variable has the value of its pointer and its domain. -/
lemma value_cases (h : Owning pl s) (hx : s.vars.get x = some a) :
    (a.base = none ∧ s.valueOf x = some (.blank a.m_domain)) ∨
      ∃ p o, a.base = some p ∧ s.heap.get p = some o ∧ a.m_domain = pl.domainOf o.family ∧
        s.valueOf x = some (.set o) := by
  cases hb : a.base with
  | none => exact Or.inl ⟨rfl, valueOf_blank hx hb⟩
  | some p =>
    obtain ⟨o, ho, hd⟩ := h.target x a p hx hb
    exact Or.inr ⟨p, o, rfl, ho, hd, valueOf_set hx hb ho⟩

/-- A variable keeps its value when it and its object are not touched. -/
lemma valueOf_congr (hv : s'.vars.get y = s.vars.get y)
    (hh : ∀ b p, s.vars.get y = some b → b.base = some p → s'.heap.get p = s.heap.get p) :
    s'.valueOf y = s.valueOf y := by
  unfold valueOf
  rw [hv]
  cases hy : s.vars.get y with
  | none => rfl
  | some b =>
    cases hp : b.base with
    | none => simp [hp]
    | some p => simp [hp, hh b p hy hp]

/-! ### What the building blocks do to the values -/

lemma values_eq {t : AddressValues} (hnext : s'.vars.next = t.next)
    (hvalue : ∀ y, s'.valueOf y = t.value y) : s'.values = t :=
  AddressValues.ext hnext (funext hvalue)

/-- A new variable has the new value, and all others are what they were. -/
lemma values_push (hvars : s'.vars = s.vars.push a) {v : AddressValue}
    (hnew : s'.valueOf s.vars.next = some v)
    (hh : ∀ y b p, s.vars.get y = some b → b.base = some p → s'.heap.get p = s.heap.get p) :
    s'.values = s.values.make v := by
  apply values_eq
  · rw [hvars, Store.next_push]
    rfl
  · intro y
    change _ = Function.update s.valueOf s.vars.next (some v) y
    by_cases hy : y = s.vars.next
    · rw [hy, hnew, Function.update_self]
    · rw [Function.update_of_ne hy]
      refine valueOf_congr ?_ (hh y)
      rw [hvars, Store.get_push, if_neg hy]

/-- Writing a variable replaces its value, and all others are what they were. -/
lemma values_put (hx : s.vars.get x = some a) (hvars : s'.vars = s.vars.put x b)
    {v : AddressValue} (hnew : s'.valueOf x = some v)
    (hh : ∀ y c p, y ≠ x → s.vars.get y = some c → c.base = some p →
      s'.heap.get p = s.heap.get p) :
    s'.values = s.values.assign x v := by
  apply values_eq
  · rw [hvars, Store.next_put]
    rfl
  · intro y
    change _ = Function.update s.valueOf x (some v) y
    by_cases hy : y = x
    · rw [hy, hnew, Function.update_self]
    · rw [Function.update_of_ne hy]
      refine valueOf_congr ?_ (fun c p => hh y c p hy)
      rw [hvars, Store.get_put hx, if_neg hy]

lemma values_erase (hvars : s'.vars = s.vars.erase x)
    (hh : ∀ y c p, y ≠ x → s.vars.get y = some c → c.base = some p →
      s'.heap.get p = s.heap.get p) :
    s'.values = s.values.drop x := by
  apply values_eq
  · rw [hvars, Store.next_erase]
    rfl
  · intro y
    change _ = Function.update s.valueOf x none y
    by_cases hy : y = x
    · rw [hy, Function.update_self]
      apply valueOf_none
      rw [hvars, Store.get_erase_self]
    · rw [Function.update_of_ne hy]
      refine valueOf_congr ?_ (fun c p => hh y c p hy)
      rw [hvars, Store.get_erase, if_neg hy]

/-- A constructor that throws leaves the values as they were. -/
lemma values_skip (hvars : ∀ y, s'.vars.get y = s.vars.get y)
    (hnext : s'.vars.next = s.vars.next + 1) (hheap : s'.heap = s.heap) :
    s'.values = s.values.skip := by
  apply values_eq hnext
  intro y
  apply valueOf_congr (hvars y)
  intro b p _ _
  rw [hheap]

/-- The objects of the other variables survive when one object goes and a new one comes. -/
lemma released_get (h : Owning pl s) (hx : s.vars.get x = some a) {c : Address} {p : Nat}
    (hne : y ≠ x) (hy : s.vars.get y = some c) (hp : c.base = some p) :
    (s.released a.base).heap.get p = s.heap.get p := by
  cases hq : a.base with
  | none => rfl
  | some q =>
    have hpq : p ≠ q := by
      rintro rfl
      exact hne (h.unshared y x c a p hy hx hp hq)
    change (s.heap.erase q).get p = _
    rw [Store.get_erase, if_neg hpq]

lemma push_get (h : Owning pl s) {c : Address} {p : Nat} (hy : s.vars.get y = some c)
    (hp : c.base = some p) (o : AddressObject) : (s.heap.push o).get p = s.heap.get p := by
  obtain ⟨o', ho'⟩ := h.live hy p hp
  rw [ho']
  exact Store.get_push_of_some ho' o

/-! ### What is decoded from an encoded object -/

end Addresses

section Recomposed

variable {pl : Platform} {o o' : AddressObject} {st : SockaddrStorage}

lemma AddressObject.name_withName_of_sameValue (h : o.SameValue o') :
    o' = o.withName o'.name := by
  apply AddressObject.eq_of_sameValue
  · cases o with
    | ipv4 a =>
      cases o' with
      | ipv4 b => exact ⟨h.1.symm, h.2.symm⟩
      | ipv6 b => exact h.elim
      | unix b => exact h.elim
    | ipv6 a =>
      cases o' with
      | ipv4 b => exact h.elim
      | ipv6 b => exact ⟨h.1.symm, h.2.1.symm, h.2.2.1.symm, h.2.2.2.symm⟩
      | unix b => exact h.elim
    | unix a =>
      cases o' with
      | ipv4 b => exact h.elim
      | ipv6 b => exact h.elim
      | unix b => exact Eq.symm (show a.m_addr = b.m_addr from h)
  · cases o with
    | ipv4 a => rfl
    | ipv6 a => rfl
    | unix a =>
      cases o' with
      | ipv4 b => exact h.elim
      | ipv6 b => exact h.elim
      | unix b =>
        have hab : a = b := congrArg UnixAddress.mk h
        rw [hab]
        rfl

/-- The values of an object and a name of its own composition determine the object. -/
lemma AddressObject.eq_recomposed (h : o.SameValue o') (hname : o'.NameKept pl) :
    o' = o.recomposed pl := by
  have hdecoded : o.decodedName pl = .ok o'.name := h.decodedName_eq.trans hname
  rw [AddressObject.recomposed, hdecoded]
  exact AddressObject.name_withName_of_sameValue h

/-- An object that fits is encoded and decoded under its recomposed name, whatever the locals
of the cast held. -/
lemma encode_cases (hn : pl.NtopTotal) (o : AddressObject) (fr : Frame) :
    (o.Fits pl ∧ ∃ st, o.toSockaddrStorage pl fr = some st ∧
        decode pl st o.size = some (.ok (o.recomposed pl))) ∨
      (¬o.Fits pl ∧ o.toSockaddrStorage pl fr = none) := by
  cases hst : o.toSockaddrStorage pl fr with
  | some st =>
    obtain ⟨o', hdec, hv, -⟩ := exists_decode_encoded hn hst
    rw [AddressObject.eq_recomposed hv (nameKept_of_decode hdec)] at hdec
    exact Or.inl ⟨fits_of_toSockaddrStorage hst, st, rfl, hdec⟩
  | none =>
    refine Or.inr ⟨fun hfit => ?_, rfl⟩
    obtain ⟨st, hst', -⟩ := AddressObject.toSockaddrStorage_encoded hfit fr
    rw [hst] at hst'
    cases hst'

end Recomposed

namespace Addresses

variable {pl : Platform} {s : Addresses} {x y len : Nat} {a b : Address} {o : AddressObject}
  {st : SockaddrStorage} {fr : Frame}

/-! ### What the operations do to the values -/

/-- However the program ends, the values are `t`; it faults where there are none. -/
def Yields {α : Type} (m : AddrProg α) (t : Option AddressValues) (s : Addresses) : Prop :=
  Prog.wp m (fun _ s' => t = some s'.values) (fun _ s' => t = some s'.values)
    (fun _ => t = none) s

lemma Yields.resume {α : Type} {m : AddrProg α} {t : Option AddressValues} (h : Yields m t s) :
    (m s).resume.map values = t := by
  unfold Yields Prog.wp at h
  cases hm : m s with
  | ok a s' =>
    rw [hm] at h
    exact Eq.symm h
  | throw e s' =>
    rw [hm] at h
    exact Eq.symm h
  | fault k =>
    rw [hm] at h
    exact Eq.symm h

lemma Yields.discard {α : Type} {m : AddrProg α} {t : Option AddressValues} (h : Yields m t s) :
    Yields (m >>= fun _ => pure ()) t s := by
  rw [Yields, Prog.wp_bind]
  exact h

/-- Assignment in terms of what is decoded. -/
lemma assign_decoded (hs : pl.LibraryWorks) (h : Owning pl s) (hx : s.vars.get x = some a)
    {Q : Unit → Addresses → Prop} {E : Exn → Addresses → Prop} {F : Fault → Prop}
    (hok : ∀ o, decode pl st len = some (.ok o) → ∀ l, Q ()
      { lib := l, heap := (s.released a.base).heap.push o
        vars := s.vars.put x ⟨ssFamily pl st, some s.heap.next⟩ })
    (herror : ∀ e, decode pl st len = some (.error e) → ∀ e l, E e
      { lib := l, heap := (s.released a.base).heap
        vars := s.vars.put x ⟨ssFamily pl st, a.base⟩ })
    (hnone : decode pl st len = none → F .outOfBounds) :
    Prog.wp (assign pl x st len) Q E F s := by
  rw [wp_assign_released hx (h.live hx)]
  refine ⟨fun hc => absurd hc.2 (hs.not_cleanupFails _), fun _ => ?_⟩
  unfold decode at hok herror hnone
  cases hf : pl.familyOf (ssFamily pl st) with
  | none =>
    rw [hf] at herror
    exact herror _ rfl _ _
  | some f =>
    rw [hf] at hok herror hnone
    rw [Prog.wp_bind]
    apply newObject_spec pl
    · intro o ho _
      rw [wp_setBase (by exact (Store.get_put hx _ x).trans (if_pos rfl))]
      simpa using hok o ho _
    · rintro (hstart | ⟨e, he⟩) e' l _
      · exact absurd hstart (hs.not_startFails _)
      · exact herror e he e' l
    · intro l hl
      exact absurd hl (hs.not_cleanupFails l)
    · exact hnone

lemma assign_yields (hs : pl.LibraryWorks) (h : Owning pl s)
    (hg : Blank s x ∨ Makes pl s.lib.leave st len) :
    Yields (assign pl x st len) (ValueOp.step pl s.values (.assign x st len)) s := by
  cases hx : s.vars.get x with
  | none =>
    have hv : s.values.value x = none := valueOf_none hx
    rw [Yields, assign, Prog.wp_bind, wp_this_iff, hx]
    simp [ValueOp.step, hv]
  | some a =>
    obtain ⟨v, hv⟩ : ∃ v, s.values.value x = some v := by
      rcases value_cases h hx with ⟨-, hv⟩ | ⟨p, o, -, -, -, hv⟩
      · exact ⟨_, hv⟩
      · exact ⟨_, hv⟩
    apply assign_decoded hs h hx
    · intro o ho l
      simp only [ValueOp.step, hv, ho]
      refine congrArg some (Eq.symm (values_put hx rfl ?_ ?_))
      · refine valueOf_set ((Store.get_put hx _ x).trans (if_pos rfl)) rfl ?_
        rw [← next_released s a.base]
        exact Store.get_push_self _ o
      · intro y c p hne hy hp
        change ((s.released a.base).heap.push o).get p = _
        obtain ⟨o', ho'⟩ := h.live hy p hp
        have hrel := (released_get h hx hne hy hp).trans ho'
        rw [Store.get_push_of_some hrel, ho']
    · intro e he e' l
      have hb : a.base = none := by
        rcases hg with hblank | ⟨f, o, hf, ho, -⟩
        · exact hblank a hx
        · rw [decode, hf] at he
          change AddressObject.ofStorage pl f st len = _ at he
          rw [ho] at he
          cases he
      obtain rfl : v = .blank a.m_domain :=
        Option.some.inj (hv.symm.trans (valueOf_blank hx hb))
      simp only [ValueOp.step, hv, he, hb]
      refine congrArg some (Eq.symm (values_put hx rfl ?_ fun y c p _ _ _ => rfl))
      exact valueOf_blank (a := ⟨ssFamily pl st, none⟩)
        ((Store.get_put hx _ x).trans (if_pos rfl)) rfl
    · intro hnone
      simp [ValueOp.step, hv, hnone]

lemma ofStorage_yields (hs : pl.LibraryWorks) (h : Owning pl s) :
    Yields (ofStorage pl st len) (ValueOp.step pl s.values (.ofStorage st len)) s := by
  rw [Yields, ofStorage, wp_construct]
  apply assign_decoded hs (h.pushBlank s.lib 0) (s.vars.get_push_self _)
  · intro o ho l
    simp only [ValueOp.step, ho, Store.push_put_next]
    refine congrArg some (Eq.symm (values_push rfl ?_ fun y b p hy hp => push_get h hy hp o))
    exact valueOf_set (Store.get_push_self _ _) rfl (Store.get_push_self _ o)
  · intro e he e' l
    simp only [ValueOp.step, he, Store.push_put_next]
    refine congrArg some (Eq.symm (values_skip (fun y => ?_) (by simp) rfl))
    rw [Store.get_erase]
    split
    · rename_i hy
      rw [hy, Store.get_next]
    · rename_i hy
      rw [Store.get_push, if_neg hy]
  · intro hnone
    simp [ValueOp.step, hnone]

/-- A copy is made of what the C structure of the original decodes to. -/
lemma ofBase_yields (hn : pl.NtopTotal) (hs : pl.LibraryWorks) (h : Owning pl s)
    (fr : Frame) (o : AddressObject) :
    Yields (ofBase pl fr o) (ValueOp.step pl s.values (.ofBase o)) s := by
  rcases encode_cases hn o fr with ⟨hfit, st, hst, hdec⟩ | ⟨hfit, hst⟩
  · have hstep : ValueOp.step pl s.values (.ofBase o) =
        ValueOp.step pl s.values (.ofStorage st o.size) := by
      simp [ValueOp.step, AddressValue.copied, hfit, hdec]
    rw [Yields, Prog.wp, ofBase_eq hst, hstep]
    exact ofStorage_yields hs h
  · rw [Yields, ofBase, wp_construct, hst]
    simp [ValueOp.step, AddressValue.copied, hfit]

lemma copy_yields (hn : pl.NtopTotal) (hs : pl.LibraryWorks) (h : Owning pl s) (fr : Frame)
    (y : Nat) : Yields (copy pl fr y) (ValueOp.step pl s.values (.copy y)) s := by
  cases hy : s.vars.get y with
  | none =>
    have hv : s.values.value y = none := valueOf_none hy
    rw [Yields, copy, Prog.wp_bind, wp_this_iff, hy]
    simp [ValueOp.step, hv]
  | some b =>
    rcases value_cases h hy with ⟨hb, hv⟩ | ⟨q, o, hb, ho, -, hv⟩
    · have hstep : ValueOp.step pl s.values (.copy y) =
          some (s.values.make (.blank b.m_domain)) := by
        simp [ValueOp.step, values, hv, AddressValue.copied]
      rw [Yields, wp_copy_blank pl hy hb, hstep]
      refine congrArg some (Eq.symm (values_push rfl ?_ fun y b p _ _ => rfl))
      exact valueOf_blank (a := ⟨b.m_domain, none⟩) (Store.get_push_self _ _) rfl
    · have hstep : ValueOp.step pl s.values (.copy y) =
          ValueOp.step pl s.values (.ofBase o) := by
        simp [ValueOp.step, values, hv]
      rw [Yields, wp_copy_set pl hy hb ho, hstep]
      have hbase := ofBase_yields hn hs h fr o
      constructor
      · intro st hst
        rw [Yields, Prog.wp, ofBase_eq hst] at hbase
        exact hbase
      · intro hnone
        rw [Yields, ofBase, wp_construct, hnone] at hbase
        exact hbase

lemma copyAssign_yields (hn : pl.NtopTotal) (hs : pl.LibraryWorks) (h : Owning pl s)
    (hg : KeepsObject pl s (.copyAssign fr x y)) :
    Yields (copyAssign pl fr x y) (ValueOp.step pl s.values (.copyAssign x y)) s := by
  cases hy : s.vars.get y with
  | none =>
    have hv : s.values.value y = none := valueOf_none hy
    rw [Yields, copyAssign, Prog.wp_bind, size, Prog.wp_bind, wp_this_iff, hy]
    simp [ValueOp.step, hv]
  | some b =>
    rcases value_cases h hy with ⟨hb, hv⟩ | ⟨q, o, hb, ho, -, hv⟩
    · rw [Yields, wp_copyAssign_blank pl hy hb]
      constructor
      · intro a hx
        have ha : a.base = none := by
          rcases hg with hblank | ⟨o, ho, -⟩
          · exact hblank a hx
          · rcases h.objectOf hy with ⟨-, hobj⟩ | ⟨q, o', hq, -⟩
            · rw [hobj] at ho
              cases ho
            · rw [hb] at hq
              cases hq
        have hstep : ValueOp.step pl s.values (.copyAssign x y) =
            some (s.values.assign x (.blank b.m_domain)) := by
          simp [ValueOp.step, values, hv, valueOf_blank hx ha, AddressValue.copied]
        rw [ha, wp_deleteBase_none, hstep]
        refine congrArg some (Eq.symm (values_put hx rfl ?_ fun y c p _ _ _ => rfl))
        exact valueOf_blank (a := ⟨b.m_domain, none⟩)
          ((Store.get_put hx _ x).trans (if_pos rfl)) rfl
      · intro hx
        simp [ValueOp.step, values, valueOf_none hx]
    · rw [Yields, wp_copyAssign_set pl hy hb ho]
      rcases encode_cases hn o fr with ⟨hfit, st', hst', hdec⟩ | ⟨hfit, hnone⟩
      · have hstep : ValueOp.step pl s.values (.copyAssign x y) =
            ValueOp.step pl s.values (.assign x st' o.size) := by
          simp only [ValueOp.step, values, hv, hdec]
          cases s.valueOf x with
          | none => rfl
          | some v => cases v <;> simp [AddressValue.copied, hfit]
        constructor
        · intro st hst
          obtain rfl := Option.some.inj (hst'.symm.trans hst)
          rw [hstep]
          exact assign_yields hs h (Or.inr (makes_of_toSockaddrStorage hn hs hst _))
        · intro hnone
          rw [hst'] at hnone
          cases hnone
      · constructor
        · intro st hst
          rw [hnone] at hst
          cases hst
        · intro _
          simp only [ValueOp.step, values, hv]
          cases s.valueOf x with
          | none => rfl
          | some v => cases v <;> simp [AddressValue.copied, hfit]

lemma move_yields (h : Owning pl s) (y : Nat) :
    Yields (move y) (ValueOp.step pl s.values (.move y)) s := by
  cases hy : s.vars.get y with
  | none =>
    have hv : s.values.value y = none := valueOf_none hy
    rw [Yields, move, Prog.wp_bind, wp_this_iff, hy]
    simp [ValueOp.step, hv]
  | some b =>
    have hmake : ∀ v, s.valueOf y = some v →
        ({ s with vars := s.vars.push b } : Addresses).values = s.values.make v := by
      intro v hv
      refine values_push rfl ?_ fun _ _ _ _ _ => rfl
      rw [← hv]
      simp [valueOf, hy]
    have hblank : ∀ v, s.valueOf y = some v → v.domain pl = b.m_domain →
        ({ s with vars := (s.vars.push b).put y ⟨b.m_domain, none⟩ } : Addresses).values =
          (s.values.make v).assign y (.blank (v.domain pl)) := by
      intro v hv hd
      rw [← hmake v hv, hd]
      refine values_put (Store.get_push_of_some hy b) rfl ?_ fun _ _ _ _ _ _ => rfl
      exact valueOf_blank (a := ⟨b.m_domain, none⟩)
        ((Store.get_put (Store.get_push_of_some hy b) _ y).trans (if_pos rfl)) rfl
    rw [Yields, wp_move hy]
    rcases value_cases h hy with ⟨-, hv⟩ | ⟨q, o, -, -, hd, hv⟩
    · rw [hblank _ hv rfl]
      simp [ValueOp.step, values, hv]
    · rw [hblank _ hv hd.symm]
      simp [ValueOp.step, values, hv]

lemma moveAssign_yields (h : Owning pl s) (x y : Nat) :
    Yields (moveAssign x y) (ValueOp.step pl s.values (.moveAssign x y)) s := by
  cases hy : s.vars.get y with
  | none =>
    have hstep : ValueOp.step pl s.values (.moveAssign x y) = none := by
      simp only [ValueOp.step, values, valueOf_none hy]
      cases s.valueOf x <;> rfl
    rw [Yields, moveAssign, Prog.wp_bind, wp_this_iff, hy, hstep]
    simp
  | some b =>
    cases hx : s.vars.get x with
    | none =>
      have hstep : ValueOp.step pl s.values (.moveAssign x y) = none := by
        simp only [ValueOp.step, values, valueOf_none hx]
      rw [Yields, moveAssign, Prog.wp_bind, wp_this hy, Prog.wp_bind, setDomain, Prog.wp_bind,
        wp_this_iff, hx, hstep]
      simp
    | some a =>
      obtain ⟨v, hv, hd⟩ : ∃ v, s.valueOf y = some v ∧ v.domain pl = b.m_domain := by
        rcases value_cases h hy with ⟨-, hv⟩ | ⟨q, o, -, -, hd, hv⟩
        · exact ⟨_, hv, rfl⟩
        · exact ⟨_, hv, hd.symm⟩
      obtain ⟨w, hw⟩ : ∃ w, s.valueOf x = some w := by
        rcases value_cases h hx with ⟨-, hw⟩ | ⟨q, o, -, -, -, hw⟩
        · exact ⟨_, hw⟩
        · exact ⟨_, hw⟩
      have hstep : ValueOp.step pl s.values (.moveAssign x y) =
          some ((s.values.assign x v).assign y (.blank b.m_domain)) := by
        simp only [ValueOp.step, values, hv, hw, hd]
      have hgive : ({ s with vars := s.vars.put x b } : Addresses).values =
          s.values.assign x v := by
        refine values_put hx rfl ?_ fun _ _ _ _ _ _ => rfl
        rw [← hv]
        simp [valueOf, hy, Store.get_put hx]
      obtain ⟨c, hc⟩ := Store.exists_get_put hx hy b
      rw [Yields, wp_moveAssign hx hy, hstep, ← hgive]
      refine congrArg some (Eq.symm (values_put hc rfl ?_ fun _ _ _ _ _ _ => rfl))
      exact valueOf_blank (a := ⟨b.m_domain, none⟩) ((Store.get_put hc _ y).trans (if_pos rfl)) rfl

lemma destroy_yields (hs : pl.LibraryWorks) (h : Owning pl s) (x : Nat) :
    Yields (destroy pl x) (ValueOp.step pl s.values (.destroy x)) s := by
  cases hx : s.vars.get x with
  | none =>
    rw [Yields, destroy, Prog.wp_bind, wp_this_iff, hx]
    simp [ValueOp.step, values, valueOf_none hx]
  | some a =>
    have hstep : ValueOp.step pl s.values (.destroy x) = some (s.values.drop x) := by
      rcases value_cases h hx with ⟨-, hv⟩ | ⟨q, o, -, -, -, hv⟩
      · simp [ValueOp.step, values, hv]
      · simp [ValueOp.step, values, hv]
    rw [Yields, destroy, Prog.wp_bind, wp_this hx, Prog.wp_bind, hstep]
    apply deleteBase_spec pl (h.live hx)
    · refine congrArg some (Eq.symm (values_erase ?_ fun y c p hne hy hp => ?_))
      · exact congrArg (Store.erase · x) (vars_released s a.base)
      · exact released_get h hx hne hy hp
    · intro l hl
      exact absurd hl (hs.not_cleanupFails l)

/-! ### Construction from a string -/

section OfString

variable {addrstr : List UInt8} {d : Nat}

/-- A variable that has taken the heap copy of what was parsed. -/
lemma values_adopted (h : Owning pl s) (l : Library) (d : Nat) (o : AddressObject) :
    ({ lib := l, heap := ((s.heap.push o).push o).erase s.heap.next
       vars := s.vars.push ⟨d, some (s.heap.next + 1)⟩ } : Addresses).values =
      s.values.make (.set o) := by
  refine values_push rfl ?_ fun y b p hy hp => ?_
  · refine valueOf_set (Store.get_push_self _ _) rfl ?_
    have hne : s.heap.next + 1 ≠ s.heap.next := Nat.succ_ne_self _
    rw [Store.get_erase, if_neg hne, ← Store.next_push s.heap o]
    exact Store.get_push_self _ _
  · obtain ⟨o', ho'⟩ := h.live hy p hp
    change (((s.heap.push o).push o).erase s.heap.next).get p = _
    rw [Store.get_erase, if_neg (Store.ne_next ho'),
      Store.get_push_of_some (Store.get_push_of_some ho' o) o, ho']

/-- A constructor has thrown before it wrote anything but the domain of its own variable. -/
lemma values_unmade (l : Library) (a : Address) :
    ({ lib := l, heap := s.heap, vars := (s.vars.push a).erase s.vars.next } : Addresses).values =
      s.values.skip := by
  refine values_skip (fun y => ?_) (by simp) rfl
  change ((s.vars.push a).erase s.vars.next).get y = _
  rw [Store.get_erase]
  split
  · rename_i hy
    rw [hy, Store.get_next]
  · rename_i hy
    rw [Store.get_push, if_neg hy]

/-- Parsing for a family, where the domain of the variable has been set or is set afterwards. -/
lemma adopt_cases (hs : pl.LibraryWorks) {f : Family} {after : AddrProg Unit} {a : Address}
    {Q : Unit → Addresses → Prop} {E : Exn → Addresses → Prop} {F : Fault → Prop}
    (hx : s.vars.get x = some a)
    (hafter : ∀ (t : Addresses) b R E', t.vars.get x = some b → b.m_domain = a.m_domain →
      R () { t with vars := t.vars.put x { b with m_domain := d } } →
      Prog.wp after R E' F t)
    (hok : ∀ o, (AddressObject.ofString pl f addrstr).toOption = some o → ∀ l,
      Q () { lib := l, heap := ((s.heap.push o).push o).erase s.heap.next
             vars := s.vars.put x ⟨d, some (s.heap.next + 1)⟩ })
    (hfail : (AddressObject.ofString pl f addrstr).toOption = none →
      ∀ e l, E e { s with lib := l }) :
    Prog.wp (adopt pl x f addrstr after) Q E F s := by
  apply adopt_spec pl hx hafter
  · intro o ho _
    exact hok o (by rw [ho]; rfl) _
  · rintro (hstart | ⟨e, he⟩) e' l _
    · exact absurd hstart (hs.not_startFails _)
    · exact hfail (by rw [he]; rfl) e' l
  · intro l hl
    exact absurd hl (hs.not_cleanupFails l)

lemma ofString_yields (hs : pl.LibraryWorks) (h : Owning pl s) (addrstr : List UInt8) (d : Nat) :
    Yields (ofString pl addrstr d) (ValueOp.step pl s.values (.ofString addrstr d)) s := by
  rw [Yields, ofString, wp_construct, Prog.wp_bind, wp_setDomain (s.vars.get_push_self _)]
  simp only [Store.push_put_next]
  have hnew : (s.vars.push ⟨d, none⟩).get s.vars.next = some ⟨d, none⟩ := s.vars.get_push_self _
  cases hf : pl.familyOf d with
  | some f =>
    apply adopt_cases hs (d := d) hnew
    · rintro t ⟨_, p⟩ R E' ht rfl hR
      simp only [Store.put_self ht] at hR
      exact hR
    · intro o ho l
      have hstep : ValueOp.step pl s.values (.ofString addrstr d) =
          some (s.values.make (.set o)) := by
        simp only [ValueOp.step, AddressObject.parse, hf, ho]
      rw [hstep, Store.push_put_next, values_adopted h]
    · intro hno e l
      have hstep : ValueOp.step pl s.values (.ofString addrstr d) = some s.values.skip := by
        simp only [ValueOp.step, AddressObject.parse, hf, hno]
      rw [hstep]
      exact congrArg some (values_unmade _ _).symm
  | none =>
    rw [Prog.wp_tryCatch]
    apply adopt_cases hs (d := pl.domainOf .IPv6) hnew
    · intro t b R E' ht _ hR
      exact (wp_setDomain ht).mpr hR
    · intro o ho l
      have hstep : ValueOp.step pl s.values (.ofString addrstr d) =
          some (s.values.make (.set o)) := by
        simp only [ValueOp.step, AddressObject.parse, hf, ho]
        rfl
      rw [hstep, Store.push_put_next, values_adopted h]
    · intro hno _ l
      rw [Prog.wp_tryCatch]
      apply adopt_cases hs (d := pl.domainOf .IPv4) hnew
      · intro t b R E' ht _ hR
        exact (wp_setDomain ht).mpr hR
      · intro o ho l
        have hstep : ValueOp.step pl s.values (.ofString addrstr d) =
            some (s.values.make (.set o)) := by
          simp only [ValueOp.step, AddressObject.parse, hf, hno, ho]
          rfl
        rw [hstep, Store.push_put_next, values_adopted h]
      · intro hno' e l
        have hstep : ValueOp.step pl s.values (.ofString addrstr d) = some s.values.skip := by
          simp only [ValueOp.step, AddressObject.parse, hf, hno, hno']
          rfl
        rw [hstep]
        exact congrArg some (values_unmade _ _).symm

end OfString

lemma default_yields : Yields default (ValueOp.step pl s.values .default) s := by
  rw [Yields, default, wp_construct, wp_setDomain (s.vars.get_push_self _), Store.push_put_next]
  refine congrArg some (Eq.symm (values_push rfl ?_ fun y b p _ _ => rfl))
  exact valueOf_blank (a := ⟨0xFF, none⟩) (Store.get_push_self _ _) rfl

/-- Every operation that keeps objects does to the values what it means. -/
lemma exec_yields (hn : pl.NtopTotal) (hs : pl.LibraryWorks) (h : Owning pl s) {op : AddressOp}
    (hg : KeepsObject pl s op) :
    Yields (op.exec pl) (ValueOp.step pl s.values op.meaning) s := by
  cases op with
  | default => exact default_yields.discard
  | ofString addrstr d => exact (ofString_yields hs h addrstr d).discard
  | ofStorage st len => exact (ofStorage_yields hs h).discard
  | ofBase fr o => exact (ofBase_yields hn hs h fr o).discard
  | copy fr y => exact (copy_yields hn hs h fr y).discard
  | move y => exact (move_yields h y).discard
  | copyAssign fr x y => exact copyAssign_yields hn hs h hg
  | moveAssign x y => exact moveAssign_yields h x y
  | assign x st len => exact assign_yields hs h hg
  | destroy x => exact destroy_yields hs h x

/-- Where an object would be lost, there are no values. -/
lemma step_of_not_keepsObject (hn : pl.NtopTotal) (hs : pl.LibraryWorks) (h : Owning pl s)
    {op : AddressOp} (hg : ¬KeepsObject pl s op) : ValueOp.step pl s.values op.meaning = none := by
  have hheld : ∀ x, ¬Blank s x → ∃ o, s.valueOf x = some (.set o) := by
    intro x hx
    obtain ⟨a, ha⟩ := not_forall.mp hx
    obtain ⟨hget, hbase⟩ := Classical.not_imp.mp ha
    rcases value_cases h hget with ⟨hb, -⟩ | ⟨p, o, -, -, -, hv⟩
    · exact absurd hb hbase
    · exact ⟨o, hv⟩
  cases op with
  | assign x st len =>
    obtain ⟨hblank, hm⟩ := not_or.mp hg
    obtain ⟨o, hv⟩ := hheld x hblank
    have hne : ∀ o', decode pl st len ≠ some (.ok o') := by
      intro o' ho'
      refine hm ⟨o'.family, o', ?_, ?_, hs.not_startFails _⟩
      · rw [(ofStorage_of_decode_ok (s := s) hs ho').1, Platform.familyOf_domainOf]
      · have hfam := (ofStorage_of_decode_ok (s := s) hs ho').1
        rw [decode, hfam, Platform.familyOf_domainOf] at ho'
        exact ho'
    simp only [AddressOp.meaning, ValueOp.step, values, hv]
    split
    · rename_i o' _ ho'
      exact absurd ho' (hne o')
    · rename_i hval _
      cases hval
    · rfl
  | copyAssign fr x y =>
    obtain ⟨hblank, hno⟩ := not_or.mp hg
    obtain ⟨o, hv⟩ := hheld x hblank
    cases hy : s.vars.get y with
    | none => simp only [AddressOp.meaning, ValueOp.step, values, hv, valueOf_none hy]
    | some b =>
      rcases value_cases h hy with ⟨-, hw⟩ | ⟨q, o', hq, ho', -, -⟩
      · simp only [AddressOp.meaning, ValueOp.step, values, hv, hw]
      · refine absurd ⟨o', ?_, fun st hst => ?_⟩ hno
        · simp [objectOf, hy, hq, ho']
        · exact makes_of_toSockaddrStorage hn hs hst _
  | _ => exact absurd trivial hg

/-- The operations on values are exactly the operations that keep objects. -/
lemma refines_values (hn : pl.NtopTotal) (hs : pl.LibraryWorks) :
    Refines (AddressOp.step pl) (ValueOp.step pl) values AddressOp.meaning (Owning pl)
      (KeepsObject pl) where
  keeps s op s' h hg hstep := Prog.resume_of_wp (exec_owning h op) hstep hg
  matches_iff s op t h := by
    by_cases hg : KeepsObject pl s op
    · have hres := (exec_yields hn hs h hg).resume
      rw [← hres, Option.map_eq_some_iff]
      exact (and_iff_right hg).symm
    · rw [step_of_not_keepsObject hn hs h hg]
      constructor
      · intro hnone
        cases hnone
      · intro hand
        exact absurd hand.1 hg

/-! ### Questions -/

variable (pl) in
/-- The questions about the variables are answered from their values. -/
structure AnsweredBy (s : Addresses) (t : AddressValues) : Prop where
  live : ∀ x, s.Live x ↔ ∃ v, t.value x = some v
  domain : ∀ x v, t.value x = some v → addressDomain x s = .ok (v.domain pl) s
  size : ∀ x v, t.value x = some v → Addresses.size x s = .ok v.size s
  name : ∀ x o, t.value x = some (.set o) → Addresses.name x s = .ok o.name s
  nameless : ∀ x d, t.value x = some (.blank d) → Addresses.name x s = .fault .nullPointer
  encoding : ∀ x o fr, t.value x = some (.set o) → o.Fits pl →
    ∃ st, toSockaddrStorage pl fr x s = .ok st s ∧ o.EncodedIn pl st
  equals : ∀ x y v w, t.value x = some v → t.value y = some w →
    Addresses.equals pl x y s = .ok (decide (v.sortKey pl = w.sortKey pl)) s
  less : ∀ x y v w, t.value x = some v → t.value y = some w →
    Addresses.less pl x y s = .ok (decide (v.sortKey pl < w.sortKey pl)) s

/-- A value says what it is the value of. -/
lemma of_valueOf (h : Owning pl s) {v : AddressValue} (hv : s.valueOf x = some v) :
    ∃ a, s.vars.get x = some a ∧ v.domain pl = a.m_domain ∧ v.sortKey pl = s.sortKey pl a ∧
      ((a.base = none ∧ v = .blank a.m_domain) ∨ ∃ o, s.Holds pl x o ∧ v = .set o) := by
  cases hx : s.vars.get x with
  | none =>
    rw [valueOf_none hx] at hv
    cases hv
  | some a =>
    refine ⟨a, rfl, ?_⟩
    rcases value_cases h hx with ⟨hb, hv'⟩ | ⟨p, o, hp, ho, hd, hv'⟩
    · obtain rfl := Option.some.inj (hv.symm.trans hv')
      exact ⟨rfl, (sortKey_none hb).symm, Or.inl ⟨hb, rfl⟩⟩
    · obtain rfl := Option.some.inj (hv.symm.trans hv')
      refine ⟨hd.symm, ?_, Or.inr ⟨o, ⟨a, p, hx, hd, hp, ho⟩, rfl⟩⟩
      rw [sortKey_some hp ho, hd]
      rfl

lemma answeredBy_values (h : Owning pl s) : AnsweredBy pl s s.values where
  live x := by
    constructor
    · rintro ⟨a, hx⟩
      rcases value_cases h hx with ⟨-, hv⟩ | ⟨p, o, -, -, -, hv⟩
      · exact ⟨_, hv⟩
      · exact ⟨_, hv⟩
    · rintro ⟨v, hv⟩
      obtain ⟨a, hx, -⟩ := of_valueOf h hv
      exact ⟨a, hx⟩
  domain x v hv := by
    obtain ⟨a, hx, hd, -⟩ := of_valueOf h hv
    rw [hd]
    exact Prog.bind_of_ok (this_eq hx)
  size x v hv := by
    obtain ⟨a, hx, -, -, ⟨hb, rfl⟩ | ⟨o, hold, rfl⟩⟩ := of_valueOf h hv
    · apply Prog.eq_ok_of_wp
      rw [wp_size_none hx hb]
      exact ⟨rfl, rfl⟩
    · exact hold.size
  name x o hv := by
    obtain ⟨a, -, -, -, ⟨-, hblank⟩ | ⟨o', hold, hset⟩⟩ := of_valueOf h hv
    · cases hblank
    · cases hset
      exact hold.name
  nameless x d hv := by
    obtain ⟨a, hx, -, -, ⟨hb, -⟩ | ⟨o', -, hset⟩⟩ := of_valueOf h hv
    · exact name_blank hx hb
    · cases hset
  encoding x o fr hv hfit := by
    obtain ⟨a, -, -, -, ⟨-, hblank⟩ | ⟨o', hold, hset⟩⟩ := of_valueOf h hv
    · cases hblank
    · cases hset
      obtain ⟨st, hst, henc⟩ := AddressObject.toSockaddrStorage_encoded hfit fr
      exact ⟨st, hold.toSockaddrStorage hst, henc⟩
  equals x y v w hv hw := by
    obtain ⟨a, hx, -, hkey, -⟩ := of_valueOf h hv
    obtain ⟨b, hy, -, hkey', -⟩ := of_valueOf h hw
    rw [hkey, hkey']
    exact equals_of_owning h hx hy
  less x y v w hv hw := by
    obtain ⟨a, hx, -, hkey, -⟩ := of_valueOf h hv
    obtain ⟨b, hy, -, hkey', -⟩ := of_valueOf h hw
    rw [hkey, hkey']
    exact less_of_owning h hx hy

variable (pl) in
/-- Two programs cannot be told apart by their addresses. -/
structure LooksLike (s s' : Addresses) : Prop where
  live : ∀ x, s.Live x ↔ s'.Live x
  domain : ∀ x, s.Live x → (addressDomain x s').answer = (addressDomain x s).answer
  size : ∀ x, s.Live x → (Addresses.size x s').answer = (Addresses.size x s).answer
  name : ∀ x, s.Live x → (Addresses.name x s').answer = (Addresses.name x s).answer
  equal : ∀ x y, s.Live x → s.Live y →
    (equals pl x y s').answer = (equals pl x y s).answer
  ordered : ∀ x y, s.Live x → s.Live y → (less pl x y s').answer = (less pl x y s).answer
  encoding : ∀ x fr fr' st, toSockaddrStorage pl fr x s = .ok st s →
    ∃ n st', Addresses.size x s = .ok n s ∧ toSockaddrStorage pl fr' x s' = .ok st' s' ∧
      st'.slice 0 n = st.slice 0 n

/-- The same values look alike. -/
lemma looksLike_of_values {s' : Addresses} (hown : Owning pl s) (hown' : Owning pl s')
    (hvalues : s'.values = s.values) : LooksLike pl s s' := by
  have h := answeredBy_values hown
  have h' := answeredBy_values hown'
  rw [hvalues] at h'
  constructor
  · intro x
    exact (h.live x).trans (h'.live x).symm
  · intro x hx
    obtain ⟨v, hv⟩ := (h.live x).mp hx
    rw [h.domain x v hv, h'.domain x v hv]
    rfl
  · intro x hx
    obtain ⟨v, hv⟩ := (h.live x).mp hx
    rw [h.size x v hv, h'.size x v hv]
    rfl
  · intro x hx
    obtain ⟨v, hv⟩ := (h.live x).mp hx
    cases v with
    | blank d => rw [h.nameless x d hv, h'.nameless x d hv]
    | set o =>
      rw [h.name x o hv, h'.name x o hv]
      rfl
  · intro x y hx hy
    obtain ⟨v, hv⟩ := (h.live x).mp hx
    obtain ⟨w, hw⟩ := (h.live y).mp hy
    rw [h.equals x y v w hv hw, h'.equals x y v w hv hw]
    rfl
  · intro x y hx hy
    obtain ⟨v, hv⟩ := (h.live x).mp hx
    obtain ⟨w, hw⟩ := (h.live y).mp hy
    rw [h.less x y v w hv hw, h'.less x y v w hv hw]
    rfl
  · intro x fr fr' st hst
    have hx : s.Live x := by
      by_contra hdead
      have hnone : s.vars.get x = none := Option.eq_none_iff_forall_ne_some.mpr fun a ha =>
        hdead ⟨a, ha⟩
      have hfault : toSockaddrStorage pl fr x s = .fault .danglingPointer := by
        apply Prog.bind_of_fault
        change Prog.demand (s.vars.get x) Fault.danglingPointer s = _
        rw [hnone]
        rfl
      rw [hfault] at hst
      cases hst
    rcases toSockaddrStorage_cases hown hx fr with ⟨-, o, st₁, hold, hst₁⟩ | ⟨-, k, -, hfault⟩
    · have hfit := fits_of_toSockaddrStorage hst₁
      obtain ⟨st₂, hst₂, henc⟩ := h.encoding x o fr hold.valueOf hfit
      obtain ⟨st', hst', henc'⟩ := h'.encoding x o fr' hold.valueOf hfit
      rw [hst] at hst₂
      cases hst₂
      exact ⟨o.size, st', hold.size, hst',
        ((henc'.agree_iff henc).mpr (AddressObject.SameValue.refl o)).2⟩
    · rw [hst] at hfault
      cases hfault

end Addresses

variable (pl : Platform)

/-- In every run the operations do to the variables exactly what they mean, and all questions are
answered from the values. The operations on values are undefined exactly where an object is lost
or the program faults. -/
theorem addresses_refine_values (hn : pl.NtopTotal) (hs : pl.LibraryWorks) (l : Library)
    (heap : Store AddressObject) (ops : List AddressOp) (t : AddressValues) :
    run (ValueOp.step pl) .empty (ops.map AddressOp.meaning) = some t ↔
      Guarded (AddressOp.step pl) (KeepsObject pl) ⟨l, heap, Store.empty⟩ ops ∧
      ∃ s, run (AddressOp.step pl) ⟨l, heap, Store.empty⟩ ops = some s ∧ s.values = t ∧
        s.AnsweredBy pl t := by
  have hown : Owning pl ⟨l, heap, Store.empty⟩ := Owning.of_vars_empty l heap
  have hrefines := Addresses.refines_values hn hs
  have hstart : (⟨l, heap, Store.empty⟩ : Addresses).values = .empty := rfl
  rw [← hstart, hrefines.run_iff hown]
  refine and_congr_right fun hg => ⟨?_, ?_⟩
  · rintro ⟨s, hr, rfl⟩
    exact ⟨s, hr, rfl, Addresses.answeredBy_values ((hrefines.along hown hg).last hr)⟩
  · rintro ⟨s, hr, hv, -⟩
    exact ⟨s, hr, hv⟩

/-- A pathname, a copy of it and a blank address that the copy is assigned to. -/
theorem addresses_refine_values_linux : ∃ s t,
    run (AddressOp.step linuxHost) Addresses.initial
      [.ofString (bytes "/a") 1, .copy ⟨fun _ => 7, fun _ => 9⟩ 0, .default,
        .copyAssign ⟨fun _ => 1, fun _ => 2⟩ 2 1, .destroy 0] = some s ∧
    s.values = t ∧ s.AnsweredBy linuxHost t := by
  obtain ⟨-, s, h⟩ := (addresses_refine_values linuxHost (ntopTotal_numericHost false false true)
    (libraryWorks_numericHost false false true) {} Store.empty
    [.ofString (bytes "/a") 1, .copy ⟨fun _ => 7, fun _ => 9⟩ 0, .default,
      .copyAssign ⟨fun _ => 1, fun _ => 2⟩ 2 1, .destroy 0] _).mp rfl
  exact ⟨s, _, h⟩

/-- The bytes that are never written, the library counter and the objects of others never show:
two runs of the same program differ in nothing that can be asked. -/
theorem junk_never_shows (hn : pl.NtopTotal) (hs : pl.LibraryWorks) (l l' : Library)
    (heap heap' : Store AddressObject) (ops ops' : List AddressOp)
    (hsame : ops.map AddressOp.meaning = ops'.map AddressOp.meaning) (s : Addresses)
    (hg : Guarded (AddressOp.step pl) (KeepsObject pl) ⟨l, heap, Store.empty⟩ ops)
    (hr : run (AddressOp.step pl) ⟨l, heap, Store.empty⟩ ops = some s) :
    ∃ s', run (AddressOp.step pl) ⟨l', heap', Store.empty⟩ ops' = some s' ∧
      s.LooksLike pl s' := by
  have hown : Owning pl ⟨l, heap, Store.empty⟩ := Owning.of_vars_empty l heap
  have hown' : Owning pl ⟨l', heap', Store.empty⟩ := Owning.of_vars_empty l' heap'
  have hrefines := Addresses.refines_values hn hs
  obtain ⟨hg', s', hr', hv⟩ := hrefines.run_agree hown hown' rfl hsame hg hr
  exact ⟨s', hr', Addresses.looksLike_of_values ((hrefines.along hown hg).last hr)
    ((hrefines.along hown' hg').last hr') hv⟩

/-- A copy by way of structures with other bytes behind the pathname. -/
theorem junk_never_shows_linux : ∃ s s',
    run (AddressOp.step linuxHost) Addresses.initial
      [.ofString (bytes "/a") 1, .copy ⟨fun _ => 7, fun _ => 9⟩ 0] = some s ∧
    run (AddressOp.step linuxHost) ⟨{}, Store.empty.push (.unix ⟨bytes "/b"⟩), Store.empty⟩
      [.ofString (bytes "/a") 1, .copy ⟨fun _ => 1, fun _ => 2⟩ 0] = some s' ∧
    s.LooksLike linuxHost s' := by
  obtain ⟨s', hr, hlooks⟩ := junk_never_shows linuxHost (ntopTotal_numericHost false false true)
    (libraryWorks_numericHost false false true) {} {} Store.empty
    (Store.empty.push (.unix ⟨bytes "/b"⟩))
    [.ofString (bytes "/a") 1, .copy ⟨fun _ => 7, fun _ => 9⟩ 0]
    [.ofString (bytes "/a") 1, .copy ⟨fun _ => 1, fun _ => 2⟩ 0] rfl _
    (.cons rfl trivial (.cons rfl trivial trivial)) rfl
  exact ⟨_, s', rfl, hr, hlooks⟩

end SockLib
