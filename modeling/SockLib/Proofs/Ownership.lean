import SockLib.Foundation.Runs
import SockLib.Model.NumericHost
import SockLib.Proofs.AddressRules

/-!
# Ownership of address objects

Every `sks::address` owns the object it points to. Each operation keeps this invariant on
its normal and its throwing paths, except when an object has been deleted and no new one
takes its place.
-/

namespace SockLib

variable (pl : Platform)

/-- A base pointer is null or points to a live object of the class named by the domain,
and no two addresses share one. -/
structure Owning (s : Addresses) : Prop where
  target : ∀ x a p, s.vars.get x = some a → a.base = some p →
    ∃ o, s.heap.get p = some o ∧ a.m_domain = pl.domainOf o.family
  unshared : ∀ x y a b p, s.vars.get x = some a → s.vars.get y = some b →
    a.base = some p → b.base = some p → x = y

namespace Owning

variable {pl} {s : Addresses}

lemma of_vars_empty (l : Library) (h : Store AddressObject) : Owning pl ⟨l, h, Store.empty⟩ := by
  constructor
  · intro x a p ha
    cases ha
  · intro x y a b p ha
    cases ha

/-- Only the objects and the addresses matter. -/
lemma congr {s' : Addresses} (h : Owning pl s) (hh : ∀ p, s'.heap.get p = s.heap.get p)
    (hv : ∀ x, s'.vars.get x = s.vars.get x) : Owning pl s' := by
  constructor <;> grind [Owning]

lemma pushBlank (h : Owning pl s) (l : Library) (d : Nat) :
    Owning pl ⟨l, s.heap, s.vars.push ⟨d, none⟩⟩ := by
  have hpush := s.vars.get_push ⟨d, none⟩
  constructor <;> grind [Owning]

lemma pushObject (h : Owning pl s) (l : Library) (o : AddressObject) :
    Owning pl ⟨l, s.heap.push o, s.vars⟩ := by
  have hpush := s.heap.get_push o
  have hnext := s.heap.get_next
  constructor <;> grind [Owning]

/-- An object nobody points to may go. -/
lemma eraseObject (h : Owning pl s) (l : Library) {p : Nat}
    (hp : ∀ x a, s.vars.get x = some a → a.base ≠ some p) :
    Owning pl ⟨l, s.heap.erase p, s.vars⟩ := by
  have herase := s.heap.get_erase p
  constructor <;> grind [Owning]

lemma setBlank (h : Owning pl s) {x : Nat} {a : Address} (hx : s.vars.get x = some a) (d : Nat) :
    Owning pl ⟨s.lib, s.heap, s.vars.put x ⟨d, none⟩⟩ := by
  have hput := Store.get_put hx ⟨d, none⟩
  constructor <;> grind [Owning]

/-- The object of an address is deleted and the address becomes blank. -/
lemma delete (h : Owning pl s) {x p : Nat} {a : Address} (hx : s.vars.get x = some a)
    (hp : a.base = some p) (l : Library) (d : Nat) :
    Owning pl ⟨l, s.heap.erase p, s.vars.put x ⟨d, none⟩⟩ := by
  have hput := Store.get_put hx ⟨d, none⟩
  have herase := s.heap.get_erase p
  constructor <;> grind [Owning]

/-- A blank address takes an object nobody points to. -/
lemma attach (h : Owning pl s) {x p : Nat} {a : Address} {o : AddressObject}
    (hx : s.vars.get x = some a) (hp : s.heap.get p = some o)
    (hfree : ∀ y b, s.vars.get y = some b → b.base ≠ some p) :
    Owning pl ⟨s.lib, s.heap, s.vars.put x ⟨pl.domainOf o.family, some p⟩⟩ := by
  have hput := Store.get_put hx ⟨pl.domainOf o.family, some p⟩
  constructor <;> grind [Owning]

/-- An address goes, and the object it points to with it. -/
lemma eraseVar (h : Owning pl s) (l : Library) (x : Nat) :
    Owning pl ⟨l, s.heap, s.vars.erase x⟩ := by
  have herase := s.vars.get_erase x
  constructor <;> grind [Owning]

/-- An object is handed over from one address to another. -/
lemma transfer (h : Owning pl s) {x y : Nat} {a b : Address} (hx : s.vars.get x = some a)
    (hy : s.vars.get y = some b) :
    Owning pl ⟨s.lib, s.heap, (s.vars.put x b).put y ⟨b.m_domain, none⟩⟩ := by
  have hput := Store.get_put hx b
  obtain ⟨c, hc⟩ := Store.exists_get_put hx hy b
  have hput' := Store.get_put hc ⟨b.m_domain, none⟩
  constructor <;> grind [Owning]

lemma handOver (h : Owning pl s) {y : Nat} {b : Address} (hy : s.vars.get y = some b) :
    Owning pl ⟨s.lib, s.heap, (s.vars.push b).put y ⟨b.m_domain, none⟩⟩ := by
  have hpush := s.vars.get_push b
  have hput := Store.get_put (Store.get_push_of_some hy b) ⟨b.m_domain, none⟩
  have hnext := s.vars.get_next
  constructor <;> grind [Owning]

end Owning

/-! ### What each operation keeps -/

/-- The address holds no object. -/
def Blank (s : Addresses) (x : Nat) : Prop := ∀ a, s.vars.get x = some a → a.base = none

/-- The object an address holds. -/
def Addresses.objectOf (s : Addresses) (x : Nat) : Option AddressObject := do
  let a ← s.vars.get x
  let p ← a.base
  s.heap.get p

/-- The condition on a single operation: an address that holds an object is assigned only
what can take the place of this object. -/
def KeepsObject (s : Addresses) : AddressOp → Prop
  | .assign x st len => Blank s x ∨ Addresses.Makes pl s.lib.leave st len
  | .copyAssign fr x y => Blank s x ∨ ∃ o, s.objectOf y = some o ∧
      ∀ st, o.toSockaddrStorage pl fr = some st → Addresses.Makes pl s.lib.leave st o.size
  | _ => True

variable {pl} {s : Addresses}

lemma ofStorage_family {f : Family} {st : SockaddrStorage} {len : Nat} {o : AddressObject}
    (h : AddressObject.ofStorage pl f st len = some (.ok o)) : o.family = f := by
  cases f with
  | unix =>
    obtain ⟨a, -, ha⟩ := Option.map_eq_some_iff.mp h
    cases ha
    rfl
  | IPv4 =>
    obtain ⟨a, -, rfl⟩ := exists_of_map_eq_ok (Option.some.inj h)
    rfl
  | IPv6 =>
    obtain ⟨a, -, rfl⟩ := exists_of_map_eq_ok (Option.some.inj h)
    rfl

lemma ofString_family {f : Family} {addrstr : List UInt8} {o : AddressObject}
    (h : AddressObject.ofString pl f addrstr = .ok o) : o.family = f := by
  cases f <;> obtain ⟨a, -, rfl⟩ := exists_of_map_eq_ok h <;> rfl

lemma Owning.live (h : Owning pl s) {x : Nat} {a : Address} (hx : s.vars.get x = some a) :
    ∀ p, a.base = some p → ∃ o, s.heap.get p = some o := by
  intro p hp
  obtain ⟨o, ho, -⟩ := h.target x a p hx hp
  exact ⟨o, ho⟩

/-- Deleting the object of an address and forgetting the pointer. -/
lemma Owning.release (h : Owning pl s) {x : Nat} {a : Address} (hx : s.vars.get x = some a)
    (l : Library) (d : Nat) :
    Owning pl ⟨l, (s.released a.base).heap, s.vars.put x ⟨d, none⟩⟩ := by
  obtain ⟨d', b⟩ := a
  cases b with
  | none => exact (h.setBlank hx d).congr (fun _ => rfl) (fun _ => rfl)
  | some p => exact h.delete hx rfl l d

lemma assign_owning (h : Owning pl s) (x : Nat) (st : SockaddrStorage) (len : Nat) :
    Prog.wp (Addresses.assign pl x st len) (fun _ => Owning pl)
      (fun _ s' => Blank s x ∨ Addresses.Makes pl s.lib.leave st len → Owning pl s')
      (· ≠ .doubleDelete) s := by
  refine Addresses.wp_of_this (by decide) fun a hx => ?_
  refine Addresses.assign_spec pl hx (h.live hx) (fun f o hf ho hs => ?_)
    (fun hno e l hl hg => ?_) (fun _ _ => by decide) (fun _ _ => by decide)
  · have hrel := h.release hx (s.released a.base).lib.enter (ssFamily pl st)
    have hput := Store.get_put hx ⟨ssFamily pl st, none⟩
    have hd : ssFamily pl st = pl.domainOf o.family := by
      rw [ofStorage_family ho, (pl.domainOf_of_familyOf hf)]
    have hatt := (hrel.pushObject (s.released a.base).lib.enter o).attach
      ((hput x).trans (if_pos rfl)) (Store.get_push_self _ o) ?_
    · simpa [hd] using hatt
    · intro y b hy hb
      obtain ⟨o', ho'⟩ := hrel.live hy _ hb
      rw [Store.get_next] at ho'
      cases ho'
  · obtain ⟨d, b⟩ := a
    cases b with
    | none => exact h.release hx l (ssFamily pl st)
    | some p =>
      rcases hg with hb | hm
      · cases hb _ hx
      · exact absurd hm hno

/-- When no new object can be made, assignment leaves the old pointer behind. -/
lemma assign_dangles (h : Owning pl s) {x p : Nat} {a : Address} (hx : s.vars.get x = some a)
    (hp : a.base = some p) {st : SockaddrStorage} {len : Nat}
    (hno : ¬Addresses.Makes pl s.lib.leave st len) :
    Prog.wp (Addresses.assign pl x st len) (fun _ s' => ¬Owning pl s') (fun _ s' => ¬Owning pl s')
      (fun _ => True) s := by
  obtain ⟨d, b⟩ := a
  obtain rfl : b = some p := hp
  refine Addresses.assign_spec pl hx (h.live hx) (fun f o hf ho hs => ?_) (fun _ e l hl hown => ?_)
    (fun _ _ => trivial) (fun _ _ => trivial)
  · exact absurd ⟨f, o, hf, ho, hs⟩ hno
  · obtain ⟨o, ho⟩ := hown.live ((Store.get_put hx _ x).trans (if_pos rfl)) p rfl
    simp [Addresses.released] at ho

lemma ofStorage_owning (h : Owning pl s) (st : SockaddrStorage) (len : Nat) :
    Prog.wp (Addresses.ofStorage pl st len) (fun _ => Owning pl) (fun _ => Owning pl)
      (· ≠ .doubleDelete) s := by
  rw [Addresses.ofStorage, Addresses.wp_construct]
  refine Prog.wp_mono (assign_owning (h.pushBlank s.lib 0) s.vars.next st len)
    (fun _ _ ht => ht) (fun _ t ht => ?_) (fun _ hk => hk)
  refine (ht (Or.inl fun a ha => ?_)).eraseVar t.lib _
  rw [Store.get_push_self] at ha
  cases ha
  rfl

lemma adopt_owning (h : Owning pl s) {x : Nat} {a : Address} {f : Family} {addrstr : List UInt8}
    {after : AddrProg Unit} (hx : s.vars.get x = some a)
    (hafter : ∀ (t : Addresses) b R E', t.vars.get x = some b → b.m_domain = a.m_domain →
      R () { t with vars := t.vars.put x { b with m_domain := pl.domainOf f } } →
      Prog.wp after R E' (· ≠ .doubleDelete) t) :
    Prog.wp (Addresses.adopt pl x f addrstr after) (fun _ => Owning pl)
      (fun _ s' => Owning pl s' ∧ s'.vars = s.vars) (· ≠ .doubleDelete) s := by
  refine Addresses.adopt_spec pl hx hafter (fun o ho hs => ?_) (fun _ e l hl => ?_)
    (fun _ _ => by decide)
  · have hpush := (h.pushObject s.lib o).pushObject s.lib.enter.enter.leave o
    have hfree : ∀ p, s.heap.get p = none → ∀ y b, s.vars.get y = some b → b.base ≠ some p := by
      intro p hp y b hy hb
      obtain ⟨o', ho'⟩ := h.live hy p hb
      rw [hp] at ho'
      cases ho'
    have hlater : s.heap.get (s.heap.next + 1) = none := by
      by_contra hne
      obtain ⟨o', ho'⟩ := Option.ne_none_iff_exists'.mp hne
      have hlt := Store.lt_next ho'
      omega
    have hnew : ((s.heap.push o).push o).get (s.heap.next + 1) = some o := by
      rw [← Store.next_push s.heap o]
      exact Store.get_push_self _ o
    have hatt := hpush.attach hx hnew (hfree _ hlater)
    rw [ofString_family ho] at hatt
    refine hatt.eraseObject _ fun y b hy hb => ?_
    rw [Store.get_put hx] at hy
    split at hy
    · cases hy
      simp at hb
    · exact hfree _ s.heap.get_next y b hy hb
  · exact ⟨h.congr (fun _ => rfl) (fun _ => rfl), rfl⟩

lemma ofString_owning (h : Owning pl s) (addrstr : List UInt8) (d : Nat) :
    Prog.wp (Addresses.ofString pl addrstr d) (fun _ => Owning pl) (fun _ => Owning pl)
      (· ≠ .doubleDelete) s := by
  have hblank := h.pushBlank s.lib d
  rw [Addresses.ofString, Addresses.wp_construct, Prog.wp_bind,
    Addresses.wp_setDomain (s.vars.get_push_self _)]
  simp only [Store.push_put_next]
  cases hf : pl.familyOf d with
  | some f =>
    refine Prog.wp_mono (adopt_owning hblank (s.vars.get_push_self _) ?_)
      (fun _ _ ht => ht) (fun _ t ht => ht.1.eraseVar t.lib _) (fun _ hk => hk)
    rintro t ⟨_, p⟩ R E' ht rfl hR
    simp only [pl.domainOf_of_familyOf hf, Store.put_self ht] at hR
    exact hR
  | none =>
    have hset : ∀ f (t : Addresses) b (R : Unit → Addresses → Prop) E',
        t.vars.get s.vars.next = some b → b.m_domain = (Address.mk d none).m_domain →
        R () { t with vars := t.vars.put s.vars.next { b with m_domain := pl.domainOf f } } →
        Prog.wp (Addresses.setDomain s.vars.next (pl.domainOf f)) R E' (· ≠ .doubleDelete) t :=
      fun f t b R E' ht _ hR => (Addresses.wp_setDomain ht).mpr hR
    rw [Prog.wp_tryCatch]
    refine Prog.wp_mono (adopt_owning hblank (s.vars.get_push_self _) (hset .IPv6))
      (fun _ _ ht => ht) (fun _ t ⟨ht, hv⟩ => ?_) (fun _ hk => hk)
    rw [Prog.wp_tryCatch]
    have hx : t.vars.get s.vars.next = some ⟨d, none⟩ := by
      rw [hv]
      exact s.vars.get_push_self _
    refine Prog.wp_mono (adopt_owning ht hx (hset .IPv4))
      (fun _ _ ht => ht) (fun _ t ht => ?_) (fun _ hk => hk)
    exact ht.1.eraseVar t.lib _

lemma Owning.objectOf (h : Owning pl s) {x : Nat} {a : Address} (hx : s.vars.get x = some a) :
    (a.base = none ∧ s.objectOf x = none) ∨
      ∃ p o, a.base = some p ∧ s.heap.get p = some o ∧ s.objectOf x = some o := by
  obtain ⟨d, b⟩ := a
  cases b with
  | none => exact Or.inl ⟨rfl, by simp [Addresses.objectOf, hx]⟩
  | some p =>
    obtain ⟨o, ho⟩ := h.live hx p rfl
    exact Or.inr ⟨p, o, rfl, ho, by simp [Addresses.objectOf, hx, ho]⟩

lemma copy_owning (h : Owning pl s) (fr : Frame) (y : Nat) :
    Prog.wp (Addresses.copy pl fr y) (fun _ => Owning pl) (fun _ => Owning pl)
      (· ≠ .doubleDelete) s := by
  refine Addresses.wp_of_this (by decide) fun b hy => ?_
  rcases h.objectOf hy with ⟨hb, -⟩ | ⟨q, o, hb, ho, -⟩
  · refine (Addresses.wp_copy_blank pl hy hb).mpr ?_
    exact h.pushBlank s.lib b.m_domain
  · refine (Addresses.wp_copy_set pl hy hb ho).mpr ⟨fun st _ => ?_, fun _ => by decide⟩
    exact ofStorage_owning h st o.size

lemma copyAssign_owning (h : Owning pl s) (fr : Frame) (x y : Nat) :
    Prog.wp (Addresses.copyAssign pl fr x y)
      (fun _ s' => KeepsObject pl s (.copyAssign fr x y) → Owning pl s')
      (fun _ s' => KeepsObject pl s (.copyAssign fr x y) → Owning pl s')
      (· ≠ .doubleDelete) s := by
  cases hy : s.vars.get y with
  | none => simp [Addresses.copyAssign, Addresses.size, Addresses.wp_this_iff, hy]
  | some b =>
    rcases h.objectOf hy with ⟨hb, hobj⟩ | ⟨q, o, hb, ho, hobj⟩
    · refine (Addresses.wp_copyAssign_blank pl hy hb).mpr ⟨fun a hx => ?_, fun _ => by decide⟩
      refine Addresses.deleteBase_spec pl (h.live hx) (fun hg => ?_) (fun _ _ => by decide)
      rcases hg with hblank | ⟨o, ho, -⟩
      · rw [hblank a hx]
        exact h.setBlank hx b.m_domain
      · rw [hobj] at ho
        cases ho
    · refine (Addresses.wp_copyAssign_set pl hy hb ho).mpr ⟨fun st hst => ?_, fun _ => by decide⟩
      refine Prog.wp_mono (assign_owning h x st o.size) (fun _ _ ht _ => ht)
        (fun _ t ht hg => ht ?_) (fun _ hk => hk)
      rcases hg with hblank | ⟨o', ho', hm⟩
      · exact Or.inl hblank
      · obtain rfl : o = o' := Option.some.inj (hobj.symm.trans ho')
        exact Or.inr (hm st hst)

/-- Every operation keeps the invariant if it meets its condition, and deletes no object
that is not there in any case. -/
lemma exec_owning (h : Owning pl s) (op : AddressOp) :
    Prog.wp (op.exec pl) (fun _ s' => KeepsObject pl s op → Owning pl s')
      (fun _ s' => KeepsObject pl s op → Owning pl s') (· ≠ .doubleDelete) s := by
  have keep : ∀ {α : Type} {m : AddrProg α},
      Prog.wp m (fun _ => Owning pl) (fun _ => Owning pl) (· ≠ .doubleDelete) s →
      Prog.wp (m >>= fun _ => pure ()) (fun _ s' => KeepsObject pl s op → Owning pl s')
        (fun _ s' => KeepsObject pl s op → Owning pl s') (· ≠ .doubleDelete) s := by
    intro α m hm
    rw [Prog.wp_bind]
    exact Prog.wp_mono hm (fun _ _ ht _ => ht) (fun _ _ ht _ => ht) (fun _ hk => hk)
  cases op with
  | default =>
    refine keep ?_
    rw [Addresses.default, Addresses.wp_construct, Addresses.wp_setDomain (s.vars.get_push_self _)]
    simpa using h.pushBlank s.lib 0xFF
  | ofString addrstr d => exact keep (ofString_owning h addrstr d)
  | ofStorage st len => exact keep (ofStorage_owning h st len)
  | ofBase fr o =>
    refine keep ?_
    rw [Addresses.ofBase, Addresses.wp_construct]
    cases hst : o.toSockaddrStorage pl fr with
    | none => simp
    | some st => exact (Addresses.wp_construct).mp (ofStorage_owning h st o.size)
  | copy fr y => exact keep (copy_owning h fr y)
  | move y =>
    refine keep (Addresses.wp_of_this (by decide) fun b hy => ?_)
    exact (Addresses.wp_move hy).mpr (h.handOver hy)
  | copyAssign fr x y => exact copyAssign_owning h fr x y
  | moveAssign x y =>
    refine Addresses.wp_of_this (by decide) fun b hy => ?_
    cases hx : s.vars.get x with
    | none => simp [Addresses.wp_this hy, Addresses.setDomain, Addresses.wp_this_iff, hx]
    | some a => exact (Addresses.wp_moveAssign hx hy).mpr fun _ => h.transfer hx hy
  | assign x st len =>
    exact Prog.wp_mono (assign_owning h x st len) (fun _ _ ht _ => ht) (fun _ _ ht hg => ht hg)
      (fun _ hk => hk)
  | destroy x =>
    refine Addresses.wp_of_this (by decide) fun a hx => ?_
    rw [Prog.wp_bind, Addresses.wp_this hx, Prog.wp_bind]
    refine Addresses.deleteBase_spec pl (h.live hx) (fun _ => ?_) (fun _ _ => by decide)
    have hrel := (h.release hx (s.released a.base).lib a.m_domain).eraseVar
      (s.released a.base).lib x
    simpa using hrel

/-- An operation that misses its condition leaves a pointer to a deleted object. -/
lemma exec_dangles (h : Owning pl s) {op : AddressOp} (hg : ¬KeepsObject pl s op) :
    Prog.wp (op.exec pl) (fun _ s' => ¬Owning pl s') (fun _ s' => ¬Owning pl s')
      (fun _ => True) s := by
  have held : ∀ {x : Nat}, ¬Blank s x → ∃ a p, s.vars.get x = some a ∧ a.base = some p := by
    intro x hx
    obtain ⟨a, ha⟩ := not_forall.mp hx
    obtain ⟨hget, hbase⟩ := Classical.not_imp.mp ha
    obtain ⟨p, hp⟩ := Option.ne_none_iff_exists'.mp hbase
    exact ⟨a, p, hget, hp⟩
  cases op with
  | assign x st len =>
    obtain ⟨hblank, hm⟩ := not_or.mp hg
    obtain ⟨a, p, hx, hp⟩ := held hblank
    exact assign_dangles h hx hp hm
  | copyAssign fr x y =>
    obtain ⟨hblank, hno⟩ := not_or.mp hg
    obtain ⟨a, p, hx, hp⟩ := held hblank
    cases hy : s.vars.get y with
    | none => simp [AddressOp.exec, Addresses.copyAssign, Addresses.size, Addresses.wp_this_iff, hy]
    | some b =>
      rcases h.objectOf hy with ⟨hb, hobj⟩ | ⟨q, o, hb, ho, hobj⟩
      · refine (Addresses.wp_copyAssign_blank pl hy hb).mpr ⟨fun a' hx' => ?_, fun _ => trivial⟩
        obtain rfl : a = a' := Option.some.inj (hx.symm.trans hx')
        refine Addresses.deleteBase_spec pl (h.live hx) (fun hown => ?_) (fun _ _ => trivial)
        have hput := (Store.get_put hx { a with m_domain := b.m_domain } x).trans (if_pos rfl)
        rw [hp] at hown hput
        obtain ⟨o, ho⟩ := hown.live hput p rfl
        simp [Addresses.released] at ho
      · refine (Addresses.wp_copyAssign_set pl hy hb ho).mpr ⟨fun st hst => ?_, fun _ => trivial⟩
        refine assign_dangles h hx hp fun hm => hno ⟨o, hobj, fun st' hst' => ?_⟩
        rw [Option.some.inj (hst'.symm.trans hst)]
        exact hm
  | _ => exact absurd trivial hg

/-! ### Runs -/

variable (pl) in
/-- Every live address is null or points to a live object of its own, and no operation
deletes an object a second time. -/
def SoundlyOwned (s : Addresses) : Prop :=
  Owning pl s ∧ ∀ op : AddressOp, op.exec pl s ≠ .fault .doubleDelete

lemma Owning.soundly (h : Owning pl s) : SoundlyOwned pl s := by
  refine ⟨h, fun op hop => ?_⟩
  have hwp := exec_owning h op
  rw [Prog.wp, hop] at hwp
  exact hwp rfl

variable (pl) in
/-- Ownership holds in every state of a run exactly when every address that holds an object
is assigned only what can take the place of this object. -/
theorem soundly_owned_iff (l : Library) (heap : Store AddressObject) (ops : List AddressOp) :
    Along (AddressOp.step pl) (SoundlyOwned pl) ⟨l, heap, Store.empty⟩ ops ↔
      Guarded (AddressOp.step pl) (KeepsObject pl) ⟨l, heap, Store.empty⟩ ops := by
  refine along_iff_guarded (I := Owning pl) (fun s h => h.soundly) ?_ ?_
    (Owning.of_vars_empty l heap)
  · intro s op s' h hg hs
    exact Prog.resume_of_wp (exec_owning h op) hs hg
  · intro s op s' h hg hs hsound
    exact Prog.resume_of_wp (exec_dangles h hg) hs hsound.1

/-- Assigning a blank address to one that holds an object leaves this one dangling. -/
theorem not_soundly_owned : ¬∀ ops : List AddressOp,
    Along (AddressOp.step linuxHost) (SoundlyOwned linuxHost) Addresses.initial ops := by
  intro h
  have hlast := (h [.ofString (bytes "/a") 1, .default,
    .copyAssign ⟨fun _ => 0, fun _ => 0⟩ 0 1]).last rfl
  obtain ⟨o, ho, -⟩ := hlast.1.target 0 ⟨0xFF, some 1⟩ 1 rfl rfl
  cases ho

end SockLib
