import SockLib.Proofs.Ownership

/-!
# Leaks of address objects

An object that is alive is reachable through the base pointer of an address. Every operation
keeps this, except a move assignment onto an address that holds an object: its pointer is
overwritten and the object stays behind.
-/

namespace SockLib

variable (pl : Platform)

/-- Every live object is the target of an address, and none is left without addresses. -/
structure NothingLeaked (s : Addresses) : Prop where
  covered : ∀ p o, s.heap.get p = some o → ∃ x a, s.vars.get x = some a ∧ a.base = some p
  leftover : (∀ x, s.vars.get x = none) → ∀ p, s.heap.get p = none

/-- The condition on a single operation: a move assignment is onto an address that holds no
object, so there is nothing to dispose of. -/
def OntoEmpty (s : Addresses) : AddressOp → Prop
  | .moveAssign x _ => s.objectOf x = none
  | _ => True

/-- The invariant. A pointer that is left behind by a failed assignment counts, too: it is to
an object that has been made, and to no other address's object. -/
structure Accounted (s : Addresses) : Prop where
  covered : ∀ p o, s.heap.get p = some o → ∃ x a, s.vars.get x = some a ∧ a.base = some p
  unshared : ∀ x y a b p, s.vars.get x = some a → s.vars.get y = some b →
    a.base = some p → b.base = some p → x = y
  bounded : ∀ x a p, s.vars.get x = some a → a.base = some p → p < s.heap.next

namespace Accounted

variable {pl} {s : Addresses}

lemma empty (l : Library) : Accounted ⟨l, Store.empty, Store.empty⟩ := by
  constructor
  · intro p o hp
    cases hp
  · intro x y a b p hx
    cases hx
  · intro x a p hx
    cases hx

lemma nothingLeaked (h : Accounted s) : NothingLeaked s := by
  refine ⟨h.covered, ?_⟩
  intro hempty p
  by_contra hp
  obtain ⟨o, ho⟩ := Option.ne_none_iff_exists'.mp hp
  obtain ⟨x, a, hx, -⟩ := h.covered p o ho
  rw [hempty x] at hx
  cases hx

/-- Nothing but the library has changed. -/
lemma congr {s' : Addresses} (h : Accounted s) (hh : s'.heap = s.heap)
    (hv : ∀ x, s'.vars.get x = s.vars.get x) : Accounted s' := by
  constructor
  · intro p o hp
    rw [hh] at hp
    obtain ⟨x, a, hx, ha⟩ := h.covered p o hp
    exact ⟨x, a, (hv x).trans hx, ha⟩
  · intro x y a b p hx hy
    exact h.unshared x y a b p ((hv x).symm.trans hx) ((hv y).symm.trans hy)
  · intro x a p hx ha
    rw [hh]
    exact h.bounded x a p ((hv x).symm.trans hx) ha

lemma pushBlank (h : Accounted s) (l : Library) (d : Nat) :
    Accounted ⟨l, s.heap, s.vars.push ⟨d, none⟩⟩ := by
  have hpush := s.vars.get_push ⟨d, none⟩
  have hnext := s.vars.get_next
  constructor <;> grind [Accounted]

/-- The domain of an address does not matter. -/
lemma setDomain (h : Accounted s) {x : Nat} {a : Address} (hx : s.vars.get x = some a)
    (l : Library) (d : Nat) : Accounted ⟨l, s.heap, s.vars.put x { a with m_domain := d }⟩ := by
  have hput := Store.get_put hx { a with m_domain := d }
  constructor <;> grind [Accounted]

/-- The object of an address is gone. -/
lemma released (h : Accounted s) {x : Nat} {a : Address} (hx : s.vars.get x = some a)
    (l : Library) (d : Nat) :
    Accounted ⟨l, (s.released a.base).heap, s.vars.put x { a with m_domain := d }⟩ := by
  obtain ⟨d', b⟩ := a
  cases b with
  | none => exact h.setDomain hx l d
  | some p =>
    have hput := Store.get_put hx ⟨d, some p⟩
    have herase := s.heap.get_erase p
    have hnext := s.heap.next_erase p
    simp only [Addresses.released]
    constructor <;> grind [Accounted]

/-- The object of an address is gone, and the address points to a new one. -/
lemma replaced (h : Accounted s) {x : Nat} {a : Address} (hx : s.vars.get x = some a)
    (l : Library) (d : Nat) (o : AddressObject) :
    Accounted ⟨l, (s.released a.base).heap.push o, s.vars.put x ⟨d, some s.heap.next⟩⟩ := by
  obtain ⟨d', b⟩ := a
  have hput := Store.get_put hx ⟨d, some s.heap.next⟩
  cases b with
  | none =>
    have hpush := s.heap.get_push o
    have hnext := s.heap.next_push o
    simp only [Addresses.released]
    constructor <;> grind [Accounted]
  | some p =>
    have herase := s.heap.get_erase p
    have hpush := (s.heap.erase p).get_push o
    have hnext := (s.heap.erase p).next_push o
    have hnext' := s.heap.next_erase p
    simp only [Addresses.released]
    constructor <;> grind [Accounted]

/-- An address goes, and its object with it. -/
lemma destroyed (h : Accounted s) {x : Nat} {a : Address} (hx : s.vars.get x = some a)
    (l : Library) : Accounted ⟨l, (s.released a.base).heap, s.vars.erase x⟩ := by
  obtain ⟨d', b⟩ := a
  have herase := s.vars.get_erase x
  cases b with
  | none =>
    simp only [Addresses.released]
    constructor <;> grind [Accounted]
  | some p =>
    have herase' := s.heap.get_erase p
    have hnext := s.heap.next_erase p
    simp only [Addresses.released]
    constructor <;> grind [Accounted]

/-- A blank address takes the second of two new objects, and the first one is deleted. -/
lemma adopted (h : Accounted s) {x : Nat} {a : Address} (hx : s.vars.get x = some a)
    (hb : a.base = none) (l : Library) (d : Nat) (o : AddressObject) :
    Accounted ⟨l, ((s.heap.push o).push o).erase s.heap.next,
      s.vars.put x ⟨d, some (s.heap.next + 1)⟩⟩ := by
  have hput := Store.get_put hx ⟨d, some (s.heap.next + 1)⟩
  have hpush := s.heap.get_push o
  have hnext := s.heap.next_push o
  have hpush' := (s.heap.push o).get_push o
  have hnext' := (s.heap.push o).next_push o
  have herase := ((s.heap.push o).push o).get_erase s.heap.next
  have hnext'' := ((s.heap.push o).push o).next_erase s.heap.next
  constructor <;> grind [Accounted]

/-- The object of one address goes over to another one that holds none. -/
lemma transfer (h : Accounted s) {x y : Nat} {a b : Address} (hx : s.vars.get x = some a)
    (hy : s.vars.get y = some b) (hempty : ∀ p, a.base = some p → s.heap.get p = none) :
    Accounted ⟨s.lib, s.heap, (s.vars.put x b).put y ⟨b.m_domain, none⟩⟩ := by
  have hput := Store.get_put hx b
  obtain ⟨c, hc⟩ := Store.exists_get_put hx hy b
  have hput' := Store.get_put hc ⟨b.m_domain, none⟩
  constructor <;> grind [Accounted]

lemma handOver (h : Accounted s) {y : Nat} {b : Address} (hy : s.vars.get y = some b) :
    Accounted ⟨s.lib, s.heap, (s.vars.push b).put y ⟨b.m_domain, none⟩⟩ := by
  have hpush := s.vars.get_push b
  have hput := Store.get_put (Store.get_push_of_some hy b) ⟨b.m_domain, none⟩
  have hnext := s.vars.get_next
  constructor <;> grind [Accounted]

end Accounted

/-! ### What each operation keeps -/

section Operations

variable {pl} {s : Addresses} {E : Exn → Addresses → Prop}

/-- A base pointer that is neither null nor valid dangles. -/
lemma exists_dangling {base : Option Nat}
    (h : ¬∀ p, base = some p → ∃ o, s.heap.get p = some o) :
    ∃ p, base = some p ∧ s.heap.get p = none := by
  obtain ⟨p, hp⟩ := not_forall.mp h
  obtain ⟨hp, hno⟩ := Classical.not_imp.mp hp
  refine ⟨p, hp, ?_⟩
  by_contra hne
  exact hno (Option.ne_none_iff_exists'.mp hne)

/-- Deleting a pointer that dangles ends the run. -/
lemma wp_deleteBase_resumes {Q : Unit → Addresses → Prop} {base : Option Nat}
    (h : Q () (s.released base)) :
    Prog.wp (Addresses.deleteBase pl base) Q E (fun _ => True) s := by
  by_cases hlive : ∀ p, base = some p → ∃ o, s.heap.get p = some o
  · exact Addresses.deleteBase_spec pl hlive h (fun _ _ => trivial)
  · obtain ⟨p, rfl, hnone⟩ := exists_dangling hlive
    simp [Addresses.deleteBase, Addresses.destroyObject, hnone]

/-- When assignment throws, the address keeps its old pointer. -/
lemma assign_accounted (h : Accounted s) {x : Nat} {a : Address} (hx : s.vars.get x = some a)
    (st : SockaddrStorage) (len : Nat) :
    Prog.wp (Addresses.assign pl x st len) (fun _ => Accounted)
      (fun _ s' => Accounted s' ∧ s'.vars.get x = some ⟨ssFamily pl st, a.base⟩)
      (fun _ => True) s := by
  by_cases hlive : ∀ p, a.base = some p → ∃ o, s.heap.get p = some o
  · apply Addresses.assign_spec pl hx hlive
    · intro f o hf ho hs
      exact h.replaced hx _ (ssFamily pl st) o
    · intro _ e l hl
      exact ⟨h.released hx l (ssFamily pl st), (Store.get_put hx _ x).trans (if_pos rfl)⟩
    · intro _ _
      trivial
    · intro _ _
      trivial
  · obtain ⟨p, hp, hnone⟩ := exists_dangling hlive
    simp [Addresses.assign, Addresses.wp_this hx, hp, Addresses.deleteBase,
      Addresses.destroyObject, hnone]

lemma ofStorage_accounted (h : Accounted s) (st : SockaddrStorage) (len : Nat) :
    Prog.wp (Addresses.ofStorage pl st len) (fun _ => Accounted) (fun _ => Accounted)
      (fun _ => True) s := by
  rw [Addresses.ofStorage, Addresses.wp_construct]
  apply Prog.wp_mono_throw (assign_accounted (h.pushBlank s.lib 0) (s.vars.get_push_self _) st len)
  rintro _ t ⟨ht, hx⟩
  exact ht.destroyed hx t.lib

lemma adopt_accounted (h : Accounted s) {x d : Nat} {a : Address} (hx : s.vars.get x = some a)
    (hb : a.base = none) (f : Family) (addrstr : List UInt8) {after : AddrProg Unit}
    (hafter : ∀ (t : Addresses) b R E', t.vars.get x = some b → b.m_domain = a.m_domain →
      R () { t with vars := t.vars.put x { b with m_domain := d } } →
      Prog.wp after R E' (fun _ => True) t) :
    Prog.wp (Addresses.adopt pl x f addrstr after) (fun _ => Accounted)
      (fun _ s' => Accounted s' ∧ s'.vars = s.vars) (fun _ => True) s := by
  apply Addresses.adopt_spec pl hx hafter
  · intro o _ _
    exact h.adopted hx hb _ d o
  · intro _ e l _
    exact ⟨h.congr rfl fun _ => rfl, rfl⟩
  · intro _ _
    trivial

lemma ofString_accounted (h : Accounted s) (addrstr : List UInt8) (d : Nat) :
    Prog.wp (Addresses.ofString pl addrstr d) (fun _ => Accounted) (fun _ => Accounted)
      (fun _ => True) s := by
  have hblank := h.pushBlank s.lib d
  have hx := s.vars.get_push_self ⟨d, none⟩
  have herase : ∀ t : Addresses, Accounted t → t.vars = s.vars.push ⟨d, none⟩ →
      Accounted { t with vars := t.vars.erase s.vars.next } := by
    intro t ht hv
    exact ht.destroyed (hv ▸ hx) t.lib
  rw [Addresses.ofString, Addresses.wp_construct, Prog.wp_bind,
    Addresses.wp_setDomain (s.vars.get_push_self _)]
  simp only [Store.push_put_next]
  cases hf : pl.familyOf d with
  | some f =>
    apply Prog.wp_mono_throw (adopt_accounted hblank hx rfl f addrstr (d := d) ?_)
    · rintro _ t ⟨ht, hv⟩
      exact herase t ht hv
    · rintro t ⟨_, p⟩ R E' ht rfl hR
      rw [Prog.wp_pure]
      simpa only [Store.put_self ht] using hR
  | none =>
    have hset : ∀ f (t : Addresses) b (R : Unit → Addresses → Prop) E',
        t.vars.get s.vars.next = some b → b.m_domain = (Address.mk d none).m_domain →
        R () { t with vars := t.vars.put s.vars.next { b with m_domain := pl.domainOf f } } →
        Prog.wp (Addresses.setDomain s.vars.next (pl.domainOf f)) R E' (fun _ => True) t :=
      fun f t b R E' ht _ hR => (Addresses.wp_setDomain ht).mpr hR
    rw [Prog.wp_tryCatch]
    apply Prog.wp_mono_throw (adopt_accounted hblank hx rfl .IPv6 addrstr (hset .IPv6))
    rintro _ t ⟨ht, hv⟩
    rw [Prog.wp_tryCatch]
    apply Prog.wp_mono_throw (adopt_accounted ht (hv ▸ hx) rfl .IPv4 addrstr (hset .IPv4))
    rintro _ u ⟨hu, hv'⟩
    exact herase u hu (hv'.trans hv)

/-- What an address may hold: nothing, an object, or a pointer that dangles. -/
lemma base_cases (s : Addresses) (base : Option Nat) :
    base = none ∨ (∃ p o, base = some p ∧ s.heap.get p = some o) ∨
      ∃ p, base = some p ∧ s.heap.get p = none := by
  cases base with
  | none => exact Or.inl rfl
  | some p =>
    cases ho : s.heap.get p with
    | none => exact Or.inr (Or.inr ⟨p, rfl, ho⟩)
    | some o => exact Or.inr (Or.inl ⟨p, o, rfl, ho⟩)

lemma copy_accounted (h : Accounted s) (fr : Frame) (y : Nat) :
    Prog.wp (Addresses.copy pl fr y) (fun _ => Accounted) (fun _ => Accounted)
      (fun _ => True) s := by
  cases hy : s.vars.get y with
  | none => simp [Addresses.copy, Addresses.wp_this_iff, hy]
  | some b =>
    rcases base_cases s b.base with hb | ⟨q, o, hb, ho⟩ | ⟨q, hb, ho⟩
    · rw [Addresses.wp_copy_blank pl hy hb]
      exact h.pushBlank s.lib b.m_domain
    · rw [Addresses.wp_copy_set pl hy hb ho]
      exact ⟨fun st _ => ofStorage_accounted h st o.size, fun _ => trivial⟩
    · simp [Addresses.copy, Addresses.wp_this hy, Addresses.wp_construct, Addresses.size,
        Addresses.wp_this_iff, Store.get_push_of_some hy, hb, Addresses.dereference,
        Addresses.object, ho]

lemma copyAssign_accounted (h : Accounted s) (fr : Frame) (x y : Nat) :
    Prog.wp (Addresses.copyAssign pl fr x y) (fun _ => Accounted) (fun _ => Accounted)
      (fun _ => True) s := by
  cases hy : s.vars.get y with
  | none => simp [Addresses.copyAssign, Addresses.size, Addresses.wp_this_iff, hy]
  | some b =>
    rcases base_cases s b.base with hb | ⟨q, o, hb, ho⟩ | ⟨q, hb, ho⟩
    · rw [Addresses.wp_copyAssign_blank pl hy hb]
      refine ⟨fun a hx => ?_, fun _ => trivial⟩
      apply wp_deleteBase_resumes
      cases hbase : a.base with
      | none =>
        have hset := h.setDomain hx s.lib b.m_domain
        simpa [Addresses.released, hbase] using hset
      | some p =>
        have hrel := h.released hx s.lib.leave b.m_domain
        simpa [Addresses.released, hbase] using hrel
    · rw [Addresses.wp_copyAssign_set pl hy hb ho]
      refine ⟨fun st _ => ?_, fun _ => trivial⟩
      cases hx : s.vars.get x with
      | none => simp [Addresses.assign, Addresses.wp_this_iff, hx]
      | some a =>
        apply Prog.wp_mono_throw (assign_accounted h hx st o.size)
        intro _ t ht
        exact ht.1
    · simp [Addresses.copyAssign, Addresses.size, Addresses.wp_this hy, hb,
        Addresses.dereference, Addresses.object, ho]

/-- Every operation that meets its condition keeps the invariant. -/
lemma exec_accounted (h : Accounted s) {op : AddressOp} (hg : OntoEmpty s op) :
    Prog.wp (op.exec pl) (fun _ => Accounted) (fun _ => Accounted) (fun _ => True) s := by
  cases op with
  | default =>
    simp only [AddressOp.exec, Addresses.default, Prog.wp_bind, Addresses.wp_construct,
      Prog.wp_pure]
    rw [Addresses.wp_setDomain (s.vars.get_push_self _)]
    simpa using h.pushBlank s.lib 0xFF
  | ofString addrstr d =>
    rw [AddressOp.exec, Prog.wp_bind]
    exact ofString_accounted h addrstr d
  | ofStorage st len =>
    rw [AddressOp.exec, Prog.wp_bind]
    exact ofStorage_accounted h st len
  | ofBase fr o =>
    rw [AddressOp.exec, Prog.wp_bind, Addresses.ofBase, Addresses.wp_construct]
    cases hst : o.toSockaddrStorage pl fr with
    | none => simp
    | some st => exact (Addresses.wp_construct).mp (ofStorage_accounted h st o.size)
  | copy fr y =>
    rw [AddressOp.exec, Prog.wp_bind]
    exact copy_accounted h fr y
  | move y =>
    rw [AddressOp.exec, Prog.wp_bind]
    cases hy : s.vars.get y with
    | none => simp [Addresses.move, Addresses.wp_this_iff, hy]
    | some b =>
      rw [Addresses.wp_move hy]
      exact h.handOver hy
  | copyAssign fr x y => exact copyAssign_accounted h fr x y
  | moveAssign x y =>
    rw [AddressOp.exec]
    cases hy : s.vars.get y with
    | none => simp [Addresses.moveAssign, Addresses.wp_this_iff, hy]
    | some b =>
      cases hx : s.vars.get x with
      | none =>
        simp [Addresses.moveAssign, Addresses.wp_this hy, Addresses.setDomain,
          Addresses.wp_this_iff, hx]
      | some a =>
        rw [Addresses.wp_moveAssign hx hy]
        apply h.transfer hx hy
        intro p hp
        have hempty : s.objectOf x = none := hg
        simpa [Addresses.objectOf, hx, hp] using hempty
  | assign x st len =>
    cases hx : s.vars.get x with
    | none => simp [AddressOp.exec, Addresses.assign, Addresses.wp_this_iff, hx]
    | some a =>
      apply Prog.wp_mono_throw (assign_accounted h hx st len)
      intro _ t ht
      exact ht.1
  | destroy x =>
    apply Addresses.wp_of_this trivial
    intro a hx
    rw [Prog.wp_bind, Addresses.wp_this hx, Prog.wp_bind]
    apply wp_deleteBase_resumes
    have hdes := h.destroyed hx (s.released a.base).lib
    simpa using hdes

/-- The object that a move assignment leaves behind is the target of no address. -/
lemma moveAssign_leaks (h : Accounted s) {x y : Nat} (hg : s.objectOf x ≠ none) :
    Prog.wp (Addresses.moveAssign x y) (fun _ s' => ¬NothingLeaked s')
      (fun _ s' => ¬NothingLeaked s') (fun _ => True) s := by
  obtain ⟨o, ho⟩ := Option.ne_none_iff_exists'.mp hg
  obtain ⟨a, hx, ho⟩ := Option.bind_eq_some_iff.mp ho
  obtain ⟨p, hp, ho⟩ := Option.bind_eq_some_iff.mp ho
  cases hy : s.vars.get y with
  | none => simp [Addresses.moveAssign, Addresses.wp_this_iff, hy]
  | some b =>
    rw [Addresses.wp_moveAssign hx hy]
    intro hleak
    obtain ⟨z, c, hz, hc⟩ := hleak.covered p o ho
    have hput := Store.get_put hx b
    obtain ⟨c', hc'⟩ := Store.exists_get_put hx hy b
    have hput' := Store.get_put hc' ⟨b.m_domain, none⟩
    have hone := h.unshared
    grind

end Operations

/-! ### Runs -/

/-- Nothing is leaked in any state of a run exactly when every move assignment is onto an
address that holds no object. -/
theorem nothing_leaked_iff (l : Library) (ops : List AddressOp) :
    Along (AddressOp.step pl) NothingLeaked ⟨l, Store.empty, Store.empty⟩ ops ↔
      Guarded (AddressOp.step pl) OntoEmpty ⟨l, Store.empty, Store.empty⟩ ops := by
  apply along_iff_guarded (I := Accounted)
  · intro s h
    exact h.nothingLeaked
  · intro s op t h hg hs
    exact Prog.resume_of_wp (exec_accounted h hg) hs
  · intro s op t h hg hs
    cases op with
    | moveAssign x y =>
      exact Prog.resume_of_wp (P := fun s' => ¬NothingLeaked s') (moveAssign_leaks h hg) hs
    | _ => exact absurd trivial hg
  · exact Accounted.empty l

/-- Moving an address onto one that holds an object leaks this object. -/
theorem not_nothing_leaked : ¬∀ ops : List AddressOp,
    Along (AddressOp.step linuxHost) NothingLeaked Addresses.initial ops := by
  intro h
  have hlast := (h [.ofString (bytes "/a") 1, .ofString (bytes "/b") 1, .moveAssign 0 1,
    .destroy 0, .destroy 1]).last rfl
  have hgone := hlast.leftover (fun x => ?_) 1
  · cases hgone
  · rcases x with _ | _ | x <;> rfl

end SockLib
