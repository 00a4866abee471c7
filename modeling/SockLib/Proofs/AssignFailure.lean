import SockLib.Model.NumericHost
import SockLib.Proofs.Operands

/-!
# Assignments that fail

`assign` deletes the old object and takes the new domain before it knows whether there will be a
new object. What is left after an exception is the old address only where there was no object
and the domain is the same.
-/

namespace SockLib

variable (pl : Platform)

namespace Addresses

/-- The address `x` is in the state `t` what it was in `s`: it answers alike, by itself and
compared with any other, and it can be destroyed and assigned. -/
structure Unchanged (s t : Addresses) (x : Nat) : Prop where
  domain : (addressDomain x t).answer = (addressDomain x s).answer
  equal : ∀ y, s.Live y → (equals pl x y t).answer = (equals pl x y s).answer ∧
    (equals pl y x t).answer = (equals pl y x s).answer
  notEqual : ∀ y, s.Live y → (notEquals pl x y t).answer = (notEquals pl x y s).answer ∧
    (notEquals pl y x t).answer = (notEquals pl y x s).answer
  ordered : ∀ y, s.Live y → (less pl x y t).answer = (less pl x y s).answer ∧
    (less pl y x t).answer = (less pl y x s).answer
  size : (size x t).answer = (size x s).answer
  name : (name x t).answer = (name x s).answer
  encoding : ∀ fr, (toSockaddrStorage pl fr x t).answer = (toSockaddrStorage pl fr x s).answer
  destroyed : Prog.wp (destroy pl x) (fun _ _ => True) (fun _ _ => True) (· = .terminate) t
  assigned : ∀ st len, Prog.wp (assign pl x st len) (fun _ _ => True) (fun _ _ => True)
    (fun k => k = .terminate ∨ k = .outOfBounds) t

/-- An assignment that throws leaves the address as it was. -/
def AllOrNothing (s : Addresses) (x : Nat) (st : SockaddrStorage) (len : Nat) : Prop :=
  ∀ e t, assign pl x st len s = .throw e t → Unchanged pl s t x

/-- No object comes of the C structure, and the program goes on: its family has no class, the
system library does not start, or the address cannot be printed. -/
def Refused (l : Library) (st : SockaddrStorage) : Prop :=
  match pl.familyOf (ssFamily pl st) with
  | none => True
  | some f => l.StartFails pl ∨ ¬Printable pl st f ∧ ¬l.enter.CleanupFails pl

/-- The old object goes, and the C structure is refused. -/
def Rejects (s : Addresses) (a : Address) (st : SockaddrStorage) : Prop :=
  ¬(a.base ≠ none ∧ s.lib.CleanupFails pl) ∧ Refused pl (s.released a.base).lib st

variable {pl} {s t : Addresses} {x len : Nat} {a : Address} {st : SockaddrStorage}

/-! ### When an assignment throws -/

section Throws

variable {Q : Unit → Addresses → Prop} {E : Exn → Addresses → Prop} {F : Fault → Prop}

/-- What is left of an assignment once the old object is gone. -/
lemma wp_assign_released (hx : s.vars.get x = some a)
    (hlive : ∀ p, a.base = some p → ∃ o, s.heap.get p = some o) :
    Prog.wp (assign pl x st len) Q E F s ↔
      (a.base ≠ none ∧ s.lib.CleanupFails pl → F .terminate) ∧
      (¬(a.base ≠ none ∧ s.lib.CleanupFails pl) →
        Prog.wp (match pl.familyOf (ssFamily pl st) with
          | some f => do
            let p ← newObject pl (AddressObject.ofStorage pl f st len)
            setBase x (some p)
          | none => Prog.raise (sysErr pl EFAULT)) Q E F
          { s.released a.base with vars := s.vars.put x ⟨ssFamily pl st, a.base⟩ }) := by
  obtain ⟨d, b⟩ := a
  rw [assign, Prog.wp_bind, wp_this hx, Prog.wp_bind]
  cases b with
  | none =>
    rw [wp_deleteBase_none, Prog.wp_bind, wp_setDomain hx]
    exact ⟨fun h => ⟨fun hc => absurd rfl hc.1, fun _ => h⟩, fun h => h.2 fun hc => hc.1 rfl⟩
  | some p =>
    obtain ⟨o, ho⟩ := hlive p rfl
    rw [wp_deleteBase_some pl ho]
    simp only [ne_eq, reduceCtorEq, not_false_eq_true, true_and]
    refine and_congr_right' (imp_congr_right fun _ => ?_)
    rw [Prog.wp_bind, wp_setDomain (by exact hx)]
    rfl

/-- The exception leaves the new domain and the old pointer. -/
lemma assign_throws (hx : s.vars.get x = some a)
    (hlive : ∀ p, a.base = some p → ∃ o, s.heap.get p = some o) (hr : s.Rejects pl a st) :
    ∃ e l, assign pl x st len s = .throw e
      { lib := l, heap := (s.released a.base).heap,
        vars := s.vars.put x ⟨ssFamily pl st, a.base⟩ } := by
  obtain ⟨hdel, hrefused⟩ := hr
  have hwp : Prog.wp (assign pl x st len) (fun _ _ => False)
      (fun _ t => ∃ l, t = { lib := l, heap := (s.released a.base).heap
                             vars := s.vars.put x ⟨ssFamily pl st, a.base⟩ })
      (fun _ => False) s := by
    rw [wp_assign_released hx hlive]
    refine ⟨fun hc => hdel hc, fun _ => ?_⟩
    unfold Refused at hrefused
    cases hf : pl.familyOf (ssFamily pl st) with
    | none => exact ⟨_, rfl⟩
    | some f =>
      rw [hf] at hrefused
      rw [Prog.wp_bind]
      rcases hrefused with hstart | ⟨hprint, hclean⟩
      · rw [wp_newObject_startFails pl (by exact hstart)]
        exact ⟨_, rfl⟩
      · obtain ⟨e, he⟩ := exists_ofStorage_error_iff.mpr hprint
        rw [he, wp_newObject_error]
        exact ⟨fun _ => ⟨_, rfl⟩, fun _ => ⟨fun hc => hclean hc, fun _ => ⟨_, rfl⟩⟩⟩
  obtain ⟨e, t, ht, l, rfl⟩ := Prog.exists_throw_of_wp hwp
  exact ⟨e, l, ht⟩

/-- Nothing is thrown where the structure is not refused. -/
lemma rejects_of_throw (hx : s.vars.get x = some a)
    (hlive : ∀ p, a.base = some p → ∃ o, s.heap.get p = some o) {e : Exn}
    (ht : assign pl x st len s = .throw e t) : s.Rejects pl a st := by
  by_contra hno
  have hwp : Prog.wp (assign pl x st len) (fun _ _ => True) (fun _ _ => False) (fun _ => True)
      s := by
    rw [wp_assign_released hx hlive]
    refine ⟨fun _ => trivial, fun hdel => ?_⟩
    have hrefused : ¬Refused pl (s.released a.base).lib st := fun hr => hno ⟨hdel, hr⟩
    unfold Refused at hrefused
    cases hf : pl.familyOf (ssFamily pl st) with
    | none =>
      rw [hf] at hrefused
      exact absurd trivial hrefused
    | some f =>
      rw [hf] at hrefused
      obtain ⟨hstart, herror⟩ := not_or.mp hrefused
      rw [Prog.wp_bind]
      cases hbody : AddressObject.ofStorage pl f st len with
      | none =>
        rw [wp_newObject_none]
        exact ⟨fun hs => absurd hs hstart, fun _ => trivial⟩
      | some r =>
        cases r with
        | error e =>
          rw [wp_newObject_error]
          refine ⟨fun hs => absurd hs hstart, fun _ => ⟨fun _ => trivial, fun hclean => ?_⟩⟩
          exact herror ⟨exists_ofStorage_error_iff.mp ⟨e, hbody⟩, hclean⟩
        | ok o =>
          rw [wp_newObject_ok]
          refine ⟨fun hs => absurd hs hstart, fun _ => ?_⟩
          rw [wp_setBase (by exact (Store.get_put hx _ x).trans (if_pos rfl))]
          trivial
  rw [Prog.wp, ht] at hwp
  exact hwp

end Throws

/-! ### What is left -/

/-- Only the calls of the system library can tell a blank address from what it was. -/
lemma unchanged_of_blank (h : Owning pl s) (hx : s.vars.get x = some a) (hb : a.base = none)
    (l : Library) : Unchanged pl s { s with lib := l } x := by
  have h' : Owning pl { s with lib := l } := h.congr (fun _ => rfl) (fun _ => rfl)
  have hx' : ({ s with lib := l } : Addresses).vars.get x = some a := hx
  have hequal : ∀ y z, s.Live y → s.Live z →
      (equals pl y z { s with lib := l }).answer = (equals pl y z s).answer := by
    rintro y z ⟨b, hy⟩ ⟨c, hz⟩
    rw [equals_of_owning h hy hz, equals_of_owning h' hy hz]
    rfl
  have hnotEqual : ∀ y z, s.Live y → s.Live z →
      (notEquals pl y z { s with lib := l }).answer = (notEquals pl y z s).answer := by
    rintro y z ⟨b, hy⟩ ⟨c, hz⟩
    rw [notEquals, Prog.bind_of_ok (equals_of_owning h hy hz),
      Prog.bind_of_ok (equals_of_owning h' hy hz)]
    rfl
  have hless : ∀ y z, s.Live y → s.Live z →
      (less pl y z { s with lib := l }).answer = (less pl y z s).answer := by
    rintro y z ⟨b, hy⟩ ⟨c, hz⟩
    rw [less_of_owning h hy hz, less_of_owning h' hy hz]
    rfl
  constructor
  · rw [addressDomain, Prog.bind_of_ok (this_eq hx), Prog.bind_of_ok (this_eq hx')]
    rfl
  · intro y hy
    exact ⟨hequal x y ⟨a, hx⟩ hy, hequal y x hy ⟨a, hx⟩⟩
  · intro y hy
    exact ⟨hnotEqual x y ⟨a, hx⟩ hy, hnotEqual y x hy ⟨a, hx⟩⟩
  · intro y hy
    exact ⟨hless x y ⟨a, hx⟩ hy, hless y x hy ⟨a, hx⟩⟩
  · rw [size, Prog.bind_of_ok (this_eq hx), Prog.bind_of_ok (this_eq hx'), hb]
    rfl
  · rw [name_blank hx hb, name_blank hx' hb]
  · intro fr
    rw [toSockaddrStorage_blank hx hb, toSockaddrStorage_blank hx' hb]
  · rw [destroy, Prog.wp_bind, wp_this hx', hb, Prog.wp_bind, wp_deleteBase_none]
    trivial
  · intro st len
    apply assign_spec pl hx'
    · intro p hp
      rw [hb] at hp
      cases hp
    · intro _ _ _ _ _
      trivial
    · intro _ _ _ _
      trivial
    · intro _ _
      exact Or.inl rfl
    · intro _ _
      exact Or.inr rfl

/-- An address with an object is left with a pointer to a deleted one. -/
lemma not_unchanged_of_deleted (h : Owning pl s) (hx : s.vars.get x = some a) {p : Nat}
    (hp : a.base = some p) (l : Library) :
    ¬Unchanged pl s { lib := l, heap := (s.released a.base).heap
                      vars := s.vars.put x ⟨ssFamily pl st, a.base⟩ } x := by
  intro hu
  obtain ⟨o, ho, hd⟩ := h.target x a p hx hp
  have hput := (Store.get_put hx ⟨ssFamily pl st, a.base⟩ x).trans (if_pos rfl)
  have hsize : size x { lib := l, heap := (s.released a.base).heap
                        vars := s.vars.put x ⟨ssFamily pl st, a.base⟩ } =
      .fault .danglingPointer := by
    rw [size, Prog.bind_of_ok (this_eq hput), hp]
    refine Prog.bind_of_fault ?_
    change Prog.demand ((s.heap.erase p).get p) Fault.danglingPointer _ = _
    rw [Store.get_erase_self]
    rfl
  have hanswer := hu.size
  have hheld : s.Holds pl x o := ⟨a, p, hx, hd, hp, ho⟩
  rw [hsize, hheld.size] at hanswer
  cases hanswer

/-- An assignment is all-or-nothing exactly when it does not reject the structure, or when it
leaves a blank address of the same domain. -/
lemma allOrNothing_iff (h : Owning pl s) (hx : s.vars.get x = some a) :
    AllOrNothing pl s x st len ↔
      (s.Rejects pl a st → a.base = none ∧ ssFamily pl st = a.m_domain) := by
  constructor
  · intro hall hr
    obtain ⟨e, l, ht⟩ := assign_throws hx (h.live hx) hr
    have hu := hall e _ ht
    cases hp : a.base with
    | some p => exact absurd hu (not_unchanged_of_deleted h hx hp l)
    | none =>
      refine ⟨rfl, ?_⟩
      have hput := (Store.get_put hx ⟨ssFamily pl st, a.base⟩ x).trans (if_pos rfl)
      have hdomain := hu.domain
      rw [addressDomain, Prog.bind_of_ok (this_eq hput), Prog.bind_of_ok (this_eq hx)] at hdomain
      injection hdomain
  · intro hcond e t ht
    have hr := rejects_of_throw hx (h.live hx) ht
    obtain ⟨hb, hd⟩ := hcond hr
    obtain ⟨e', l, ht'⟩ := assign_throws hx (h.live hx) hr
    rw [ht] at ht'
    injection ht' with he hstate
    have hsame : (⟨ssFamily pl st, a.base⟩ : Address) = a := by rw [hd]
    rw [hstate, hsame, Store.put_self hx, hb]
    exact unchanged_of_blank h hx hb l

end Addresses

/-- In every state of a run, an assignment to a live address is all-or-nothing exactly when the
structure is not rejected, or when the address is blank and has the domain of the structure. -/
theorem assign_all_or_nothing_iff (l : Library) (heap : Store AddressObject)
    (ops : List AddressOp)
    (hg : Guarded (AddressOp.step pl) (KeepsObject pl) ⟨l, heap, Store.empty⟩ ops) :
    Along (AddressOp.step pl)
      (fun s => ∀ x a st len, s.vars.get x = some a →
        (s.AllOrNothing pl x st len ↔
          (s.Rejects pl a st → a.base = none ∧ ssFamily pl st = a.m_domain)))
      ⟨l, heap, Store.empty⟩ ops := by
  have hown := along_of_guarded (I := Owning pl) (G := KeepsObject pl) ?_
    (Owning.of_vars_empty l heap) hg
  · exact hown.mono fun s h x a st len hx => Addresses.allOrNothing_iff h hx
  · intro s op s' h hop hstep
    exact Prog.resume_of_wp (exec_owning h op) hstep hop

/-- A structure of the family 255, which has no class. -/
def familyless : SockaddrStorage := ⟨[255, 0] ++ List.replicate 126 0, rfl⟩

/-- The blank address has that domain from the start. -/
theorem assign_all_or_nothing_iff_linux : ∃ s,
    run (AddressOp.step linuxHost) Addresses.initial [.default] = some s ∧
    s.AllOrNothing linuxHost 0 familyless 128 := by
  have halong := assign_all_or_nothing_iff linuxHost {} Store.empty [.default]
    (.cons rfl trivial trivial)
  exact ⟨_, rfl, (halong.last rfl 0 _ familyless 128 rfl).mpr fun _ => ⟨rfl, rfl⟩⟩

/-- A pathname is gone after it has been assigned such a structure. -/
theorem not_assign_all_or_nothing : ¬∀ (ops : List AddressOp) (s : Addresses) (x : Nat)
    (st : SockaddrStorage) (len : Nat), run (AddressOp.step linuxHost) Addresses.initial ops =
      some s → s.Live x → s.AllOrNothing linuxHost x st len := by
  intro h
  have hall := h [.ofString (bytes "/a") 1] _ 0 familyless 128 rfl ⟨_, rfl⟩
  have hsize := (hall _ _ rfl).size
  cases hsize

end SockLib
