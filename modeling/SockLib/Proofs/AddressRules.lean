import SockLib.Model.Address

/-!
# Proof rules for address programs

One rule for each building block of the address operations, giving its weakest
precondition in terms of what it does to the state.
-/

namespace SockLib

variable (pl : Platform)

/-! ### The library counter -/

/-- What the library is after a new user has entered it. -/
def Library.enter (l : Library) : Library :=
  if l.autoInitialize then
    { l with
      libraryUsers := l.libraryUsers + 1
      startups := if l.libraryUsers = 0 then l.startups + 1 else l.startups }
  else l

/-- What the library is after a user has left it. -/
def Library.leave (l : Library) : Library :=
  if l.autoInitialize then
    { l with
      libraryUsers := sizeDec l.libraryUsers
      underflows := if l.libraryUsers = 0 then l.underflows + 1 else l.underflows
      cleanups := if sizeDec l.libraryUsers = 0 then l.cleanups + 1 else l.cleanups }
  else l

/-- The system library has to be started for a new user, and does not start. -/
def Library.StartFails (l : Library) : Prop :=
  l.autoInitialize = true ∧ l.libraryUsers = 0 ∧ pl.windows = true ∧
    pl.WSAStartup l.startups ≠ 0

/-- The system library has to be cleaned up after the last user, and this fails. -/
def Library.CleanupFails (l : Library) : Prop :=
  l.autoInitialize = true ∧ l.leave.libraryUsers = 0 ∧ pl.windows = true ∧
    pl.WSACleanup l.cleanups ≠ 0

namespace Library

@[simp] lemma autoInitialize_enter (l : Library) : l.enter.autoInitialize = l.autoInitialize := by
  unfold enter
  split <;> rfl

@[simp] lemma autoInitialize_leave (l : Library) : l.leave.autoInitialize = l.autoInitialize := by
  unfold leave
  split <;> rfl

lemma not_startFails_enter (l : Library) : ¬l.enter.StartFails pl := by
  rintro ⟨hauto, hzero, -⟩
  rw [autoInitialize_enter] at hauto
  simp [enter, hauto] at hzero

variable {pl} in
/-- On POSIX the library always starts. -/
lemma not_startFails_of_posix (hw : pl.windows = false) (l : Library) : ¬l.StartFails pl := by
  rintro ⟨-, -, htrue, -⟩
  rw [hw] at htrue
  cases htrue

variable {pl} in
lemma not_cleanupFails_of_posix (hw : pl.windows = false) (l : Library) :
    ¬l.CleanupFails pl := by
  rintro ⟨-, -, htrue, -⟩
  rw [hw] at htrue
  cases htrue

/-- The same users; the system library may have been called in between, and cleaned up if
there are none. -/
structure SameUsers (l l' : Library) : Prop where
  auto : l'.autoInitialize = l.autoInitialize
  users : l'.libraryUsers = l.libraryUsers
  underflows : l'.underflows = l.underflows
  cleanups : l'.cleanups ≠ l.cleanups → l.libraryUsers = 0

lemma SameUsers.refl (l : Library) : l.SameUsers l := ⟨rfl, rfl, rfl, fun h => absurd rfl h⟩

lemma sameUsers_startup (l : Library) : l.SameUsers { l with startups := l.startups + 1 } :=
  ⟨rfl, rfl, rfl, fun h => absurd rfl h⟩

lemma sameUsers_leave_enter (l : Library) : l.SameUsers l.enter.leave := by
  by_cases h : l.autoInitialize
  · refine ⟨by simp, by simp [enter, leave, sizeDec, h], by simp [enter, leave, h], fun hc => ?_⟩
    by_contra hne
    exact hc (by simp [enter, leave, sizeDec, h, hne])
  · have hself : l.enter.leave = l := by simp [enter, leave, h]
    rw [hself]
    exact SameUsers.refl l

end Library

section Counter

variable {E : Exn → Library → Prop} {F : Fault → Prop}

lemma wp_autoInitializeLibrary {Q : Unit → Library → Prop} {l : Library} :
    Prog.wp (autoInitializeLibrary pl) Q E F l ↔
      (l.StartFails pl →
        E (sysErr pl (pl.WSAStartup l.startups)) { l with startups := l.startups + 1 }) ∧
      (¬l.StartFails pl → Q () l.enter) := by
  unfold autoInitializeLibrary initializeLibrary Library.StartFails Library.enter
  by_cases hauto : l.autoInitialize = true
  · by_cases h0 : l.libraryUsers = 0
    · by_cases hw : pl.windows = true ∧ ¬pl.WSAStartup l.startups = 0
      · simp [h0, hauto, hw]
      · simp [h0, hauto, hw]
    · simp [h0, hauto]
  · simp [hauto]

lemma wp_autoDeinitializeLibrary {Q : Unit → Library → Prop} {l : Library} :
    Prog.wp (autoDeinitializeLibrary pl) Q E F l ↔
      (l.CleanupFails pl → E (sysErr pl (pl.WSACleanup l.cleanups)) l.leave) ∧
      (¬l.CleanupFails pl → Q () l.leave) := by
  unfold autoDeinitializeLibrary deinitializeLibrary Library.CleanupFails Library.leave
  by_cases hauto : l.autoInitialize = true
  · by_cases h0 : sizeDec l.libraryUsers = 0
    · by_cases hw : pl.windows = true ∧ ¬pl.WSACleanup l.cleanups = 0
      · simp [h0, hauto, hw]
      · simp [h0, hauto, hw]
    · simp [h0, hauto]
  · simp [hauto]

end Counter

lemma AddressObject.size_pos (o : AddressObject) : 0 < o.size := by
  cases o with
  | ipv4 a => exact Nat.zero_lt_succ _
  | ipv6 a => exact Nat.zero_lt_succ _
  | unix a =>
    simp only [AddressObject.size, UnixAddress.size]
    split_ifs <;> omega

namespace Addresses

section Objects

variable {α : Type} {E : Exn → Addresses → Prop} {F : Fault → Prop} {s : Addresses}

lemma wp_addressBase {Q : Unit → Addresses → Prop} :
    Prog.wp (addressBase pl) Q E F s ↔
      (s.lib.StartFails pl → E (sysErr pl (pl.WSAStartup s.lib.startups))
        { s with lib := { s.lib with startups := s.lib.startups + 1 } }) ∧
      (¬s.lib.StartFails pl → Q () { s with lib := s.lib.enter }) := by
  rw [addressBase, onLibrary, Prog.wp_zoom, wp_autoInitializeLibrary]

lemma wp_addressBaseDtor {Q : Unit → Addresses → Prop} :
    Prog.wp (addressBaseDtor pl) Q E F s ↔
      (s.lib.CleanupFails pl → F .terminate) ∧
      (¬s.lib.CleanupFails pl → Q () { s with lib := s.lib.leave }) := by
  rw [addressBaseDtor, onLibrary, Prog.wp_tryCatch, Prog.wp_zoom, wp_autoDeinitializeLibrary]
  simp only [Prog.wp_undefined]

lemma wp_newObject_ok {Q : Nat → Addresses → Prop} {o : AddressObject} :
    Prog.wp (newObject pl (some (.ok o))) Q E F s ↔
      (s.lib.StartFails pl → E (sysErr pl (pl.WSAStartup s.lib.startups))
        { s with lib := { s.lib with startups := s.lib.startups + 1 } }) ∧
      (¬s.lib.StartFails pl →
        Q s.heap.next { s with lib := s.lib.enter, heap := s.heap.push o }) := by
  simp [newObject, wp_addressBase]

lemma wp_newObject_error {Q : Nat → Addresses → Prop} {e : Exn} :
    Prog.wp (newObject pl (some (.error e))) Q E F s ↔
      (s.lib.StartFails pl → E (sysErr pl (pl.WSAStartup s.lib.startups))
        { s with lib := { s.lib with startups := s.lib.startups + 1 } }) ∧
      (¬s.lib.StartFails pl →
        (s.lib.enter.CleanupFails pl → F .terminate) ∧
        (¬s.lib.enter.CleanupFails pl → E e { s with lib := s.lib.enter.leave })) := by
  simp [newObject, wp_addressBase, wp_addressBaseDtor]

lemma wp_newObject_none {Q : Nat → Addresses → Prop} :
    Prog.wp (newObject pl none) Q E F s ↔
      (s.lib.StartFails pl → E (sysErr pl (pl.WSAStartup s.lib.startups))
        { s with lib := { s.lib with startups := s.lib.startups + 1 } }) ∧
      (¬s.lib.StartFails pl → F .outOfBounds) := by
  simp [newObject, wp_addressBase]

/-- Where the library does not start, the constructor of the class is not reached. -/
lemma wp_newObject_startFails (hstart : s.lib.StartFails pl) {Q : Nat → Addresses → Prop}
    {body : Option (Except Exn AddressObject)} :
    Prog.wp (newObject pl body) Q E F s ↔ E (sysErr pl (pl.WSAStartup s.lib.startups))
      { s with lib := { s.lib with startups := s.lib.startups + 1 } } := by
  simp [newObject, wp_addressBase, hstart]

/-- Construction makes the object or leaves everything as it was but for the calls of the
system library. -/
lemma newObject_spec {Q : Nat → Addresses → Prop} {body : Option (Except Exn AddressObject)}
    (hok : ∀ o, body = some (.ok o) → ¬s.lib.StartFails pl →
      Q s.heap.next { s with lib := s.lib.enter, heap := s.heap.push o })
    (hfail : (s.lib.StartFails pl ∨ ∃ e, body = some (.error e)) →
      ∀ e l, s.lib.SameUsers l → E e { s with lib := l })
    (hterm : ∀ l : Library, l.CleanupFails pl → F .terminate)
    (hbounds : body = none → F .outOfBounds) :
    Prog.wp (newObject pl body) Q E F s := by
  have hstart := s.lib.sameUsers_startup
  rcases body with _ | e | o
  · rw [wp_newObject_none]
    exact ⟨fun hs => hfail (Or.inl hs) _ _ hstart, fun _ => hbounds rfl⟩
  · rw [wp_newObject_error]
    refine ⟨fun hs => hfail (Or.inl hs) _ _ hstart, fun _ => ⟨fun hc => hterm _ hc, fun _ => ?_⟩⟩
    exact hfail (Or.inr ⟨e, rfl⟩) _ _ s.lib.sameUsers_leave_enter
  · rw [wp_newObject_ok]
    exact ⟨fun hs => hfail (Or.inl hs) _ _ hstart, fun hs => hok o rfl hs⟩

lemma wp_destroyObject {Q : Unit → Addresses → Prop} {p : Nat} {o : AddressObject}
    (h : s.heap.get p = some o) :
    Prog.wp (destroyObject pl p) Q E F s ↔
      (s.lib.CleanupFails pl → F .terminate) ∧
      (¬s.lib.CleanupFails pl →
        Q () { s with lib := s.lib.leave, heap := s.heap.erase p }) := by
  simp [destroyObject, h, wp_addressBaseDtor]

lemma wp_object {Q : AddressObject → Addresses → Prop} {p : Nat} {o : AddressObject}
    (h : s.heap.get p = some o) : Prog.wp (object p) Q E F s ↔ Q o s := by
  simp [object, h]

lemma wp_dereference {Q : AddressObject → Addresses → Prop} {p : Nat} {o : AddressObject}
    (h : s.heap.get p = some o) : Prog.wp (dereference (some p)) Q E F s ↔ Q o s := by
  simp [dereference, wp_object h]

@[simp] lemma wp_dereference_none {Q : AddressObject → Addresses → Prop} :
    Prog.wp (dereference none) Q E F s ↔ F .nullPointer := by
  simp [dereference]

@[simp] lemma wp_deleteBase_none {Q : Unit → Addresses → Prop} :
    Prog.wp (deleteBase pl none) Q E F s ↔ Q () s := by
  simp [deleteBase]

lemma wp_deleteBase_some {Q : Unit → Addresses → Prop} {p : Nat} {o : AddressObject}
    (h : s.heap.get p = some o) :
    Prog.wp (deleteBase pl (some p)) Q E F s ↔
      (s.lib.CleanupFails pl → F .terminate) ∧
      (¬s.lib.CleanupFails pl →
        Q () { s with lib := s.lib.leave, heap := s.heap.erase p }) :=
  wp_destroyObject pl h

/-- The state in which the object behind a base pointer is gone. -/
def released (s : Addresses) : Option Nat → Addresses
  | none => s
  | some p => { s with lib := s.lib.leave, heap := s.heap.erase p }

@[simp] lemma vars_released (s : Addresses) (base : Option Nat) :
    (s.released base).vars = s.vars := by
  cases base <;> rfl

@[simp] lemma next_released (s : Addresses) (base : Option Nat) :
    (s.released base).heap.next = s.heap.next := by
  cases base with
  | none => rfl
  | some p => exact s.heap.next_erase p

/-- A null or a valid base pointer is deleted. -/
lemma deleteBase_spec {Q : Unit → Addresses → Prop} {base : Option Nat}
    (hlive : ∀ p, base = some p → ∃ o, s.heap.get p = some o) (hQ : Q () (s.released base))
    (hterm : ∀ l : Library, l.CleanupFails pl → F .terminate) :
    Prog.wp (deleteBase pl base) Q E F s := by
  cases base with
  | none => exact hQ
  | some p =>
    obtain ⟨o, ho⟩ := hlive p rfl
    rw [wp_deleteBase_some pl ho]
    exact ⟨fun hc => hterm _ hc, fun _ => hQ⟩

end Objects

section Members

variable {α : Type} {E : Exn → Addresses → Prop} {F : Fault → Prop} {s : Addresses}

lemma wp_this {Q : Address → Addresses → Prop} {x : Nat} {a : Address}
    (h : s.vars.get x = some a) : Prog.wp (this x) Q E F s ↔ Q a s := by
  simp [this, h]

lemma wp_this_iff {Q : Address → Addresses → Prop} {x : Nat} :
    Prog.wp (this x) Q E F s ↔
      (∀ a, s.vars.get x = some a → Q a s) ∧ (s.vars.get x = none → F .danglingPointer) := by
  cases h : s.vars.get x with
  | none => simp [this, h]
  | some a => simp [wp_this h]

/-- A program that starts by reading an address may assume that it is there. -/
lemma wp_of_this {Q : α → Addresses → Prop} {f : Address → AddrProg α} {x : Nat}
    (hF : F .danglingPointer)
    (h : ∀ a, s.vars.get x = some a → Prog.wp (this x >>= f) Q E F s) :
    Prog.wp (this x >>= f) Q E F s := by
  cases hx : s.vars.get x with
  | none =>
    rw [Prog.wp_bind, wp_this_iff]
    refine ⟨fun a ha => ?_, fun _ => hF⟩
    rw [hx] at ha
    cases ha
  | some a => exact h a hx

lemma wp_setDomain {Q : Unit → Addresses → Prop} {x d : Nat} {a : Address}
    (h : s.vars.get x = some a) :
    Prog.wp (setDomain x d) Q E F s ↔
      Q () { s with vars := s.vars.put x { a with m_domain := d } } := by
  simp [setDomain, wp_this h]

lemma wp_setBase {Q : Unit → Addresses → Prop} {x : Nat} {p : Option Nat} {a : Address}
    (h : s.vars.get x = some a) :
    Prog.wp (setBase x p) Q E F s ↔
      Q () { s with vars := s.vars.put x { a with base := p } } := by
  simp [setBase, wp_this h]

lemma wp_construct {Q : Nat → Addresses → Prop} {body : Nat → AddrProg Unit} :
    Prog.wp (construct body) Q E F s ↔
      Prog.wp (body s.vars.next) (fun _ s' => Q s.vars.next s')
        (fun e s' => E e { s' with vars := s'.vars.erase s.vars.next }) F
        { s with vars := s.vars.push ⟨0, none⟩ } := by
  simp [construct]

lemma wp_size_none {Q : Nat → Addresses → Prop} {x : Nat} {a : Address}
    (h : s.vars.get x = some a) (hb : a.base = none) :
    Prog.wp (size x) Q E F s ↔ Q 0 s := by
  simp [size, wp_this h, hb]

lemma wp_size_some {Q : Nat → Addresses → Prop} {x p : Nat} {a : Address} {o : AddressObject}
    (h : s.vars.get x = some a) (hb : a.base = some p) (ho : s.heap.get p = some o) :
    Prog.wp (size x) Q E F s ↔ Q o.size s := by
  simp [size, wp_this h, hb, wp_dereference ho]

lemma wp_toSockaddrStorage {Q : SockaddrStorage → Addresses → Prop} {fr : Frame} {x p : Nat}
    {a : Address} {o : AddressObject} (h : s.vars.get x = some a) (hb : a.base = some p)
    (ho : s.heap.get p = some o) :
    Prog.wp (toSockaddrStorage pl fr x) Q E F s ↔
      (∀ st, o.toSockaddrStorage pl fr = some st → Q st s) ∧
      (o.toSockaddrStorage pl fr = none → F .outOfBounds) := by
  rw [toSockaddrStorage, Prog.wp_bind, wp_this h, hb, Prog.wp_bind, wp_dereference ho]
  cases o.toSockaddrStorage pl fr <;> simp

/-- Assigning to an address without an object: only the new one is made. -/
lemma wp_assign_blank {Q : Unit → Addresses → Prop} {x len : Nat} {a : Address}
    {st : SockaddrStorage} {f : Family} {o : AddressObject} (h : s.vars.get x = some a)
    (hb : a.base = none) (hf : pl.familyOf (ssFamily pl st) = some f)
    (ho : AddressObject.ofStorage pl f st len = some (.ok o)) (hs : ¬s.lib.StartFails pl) :
    Prog.wp (assign pl x st len) Q E F s ↔
      Q () { lib := s.lib.enter, heap := s.heap.push o,
             vars := s.vars.put x ⟨ssFamily pl st, some s.heap.next⟩ } := by
  obtain ⟨d, b⟩ := a
  obtain rfl : b = none := hb
  have hx : (s.vars.put x ⟨ssFamily pl st, none⟩).get x = some ⟨ssFamily pl st, none⟩ := by
    rw [Store.get_put h, if_pos rfl]
  simp only [assign, Prog.wp_bind, wp_this h, wp_deleteBase_none, wp_setDomain h, hf, ho]
  rw [wp_newObject_ok]
  simp only [hs, false_imp_iff, true_and, not_false_eq_true, true_imp_iff]
  rw [wp_setBase hx]
  simp

/-- An object can be made from the C structure when the library is in this state. -/
def Makes (l : Library) (st : SockaddrStorage) (len : Nat) : Prop :=
  ∃ f o, pl.familyOf (ssFamily pl st) = some f ∧
    AddressObject.ofStorage pl f st len = some (.ok o) ∧ ¬l.StartFails pl

/-- Assignment deletes the old object. The address gets the new object when it can be made,
and keeps its old pointer otherwise. -/
lemma assign_spec {Q : Unit → Addresses → Prop} {x len : Nat} {a : Address}
    {st : SockaddrStorage} (hx : s.vars.get x = some a)
    (hlive : ∀ p, a.base = some p → ∃ o, s.heap.get p = some o)
    (hok : ∀ f o, pl.familyOf (ssFamily pl st) = some f →
      AddressObject.ofStorage pl f st len = some (.ok o) →
      ¬(s.released a.base).lib.StartFails pl →
      Q () { lib := (s.released a.base).lib.enter
             heap := (s.released a.base).heap.push o
             vars := s.vars.put x ⟨ssFamily pl st, some s.heap.next⟩ })
    (hfail : ¬Makes pl (s.released a.base).lib st len →
      ∀ e l, (s.released a.base).lib.SameUsers l →
      E e { lib := l
            heap := (s.released a.base).heap
            vars := s.vars.put x ⟨ssFamily pl st, a.base⟩ })
    (hterm : ∀ l : Library, l.CleanupFails pl → F .terminate)
    (hbounds : ∀ f, AddressObject.ofStorage pl f st len = none → F .outOfBounds) :
    Prog.wp (assign pl x st len) Q E F s := by
  obtain ⟨d, b⟩ := a
  have hx' : (s.released b).vars.get x = some ⟨d, b⟩ := by rw [vars_released, hx]
  rw [assign, Prog.wp_bind, wp_this hx, Prog.wp_bind]
  refine deleteBase_spec pl hlive ?_ hterm
  rw [Prog.wp_bind, wp_setDomain hx', vars_released]
  have hput := (Store.get_put hx ⟨ssFamily pl st, b⟩ x).trans (if_pos rfl)
  cases hf : pl.familyOf (ssFamily pl st) with
  | none =>
    refine hfail ?_ _ _ (Library.SameUsers.refl _)
    rintro ⟨f, o, hf', -⟩
    rw [hf] at hf'
    cases hf'
  | some f =>
    rw [Prog.wp_bind]
    refine newObject_spec pl (fun o ho hs => ?_) (fun hno e l hl => hfail ?_ e l hl) hterm
      (hbounds f)
    · rw [wp_setBase hput]
      simpa using hok f o hf ho hs
    · rintro ⟨f', o, hf', ho, hs⟩
      obtain rfl : f = f' := Option.some.inj (hf.symm.trans hf')
      rcases hno with hstart | ⟨e, he⟩
      · exact hs hstart
      · rw [ho] at he
        cases he

/-- An address takes the heap copy of a parsed object; when parsing throws nothing has
changed but for the calls of the system library. `after` may set the domain. -/
lemma adopt_spec {Q : Unit → Addresses → Prop} {x d : Nat} {a : Address} {f : Family}
    {addrstr : List UInt8} {after : AddrProg Unit} (hx : s.vars.get x = some a)
    (hafter : ∀ (t : Addresses) b R E', t.vars.get x = some b → b.m_domain = a.m_domain →
      R () { t with vars := t.vars.put x { b with m_domain := d } } →
      Prog.wp after R E' F t)
    (hok : ∀ o, AddressObject.ofString pl f addrstr = .ok o → ¬s.lib.StartFails pl →
      Q () { lib := s.lib.enter.enter.leave
             heap := ((s.heap.push o).push o).erase s.heap.next
             vars := s.vars.put x ⟨d, some (s.heap.next + 1)⟩ })
    (hfail : (s.lib.StartFails pl ∨ ∃ e, AddressObject.ofString pl f addrstr = .error e) →
      ∀ e l, s.lib.SameUsers l → E e { s with lib := l })
    (hterm : ∀ l : Library, l.CleanupFails pl → F .terminate) :
    Prog.wp (adopt pl x f addrstr after) Q E F s := by
  rw [adopt, withObject, Prog.wp_bind]
  refine newObject_spec pl (fun o ho hs => ?_) (fun hno e l hl => hfail ?_ e l hl) hterm
    (fun hnone => by cases hnone)
  rotate_left
  · exact hno.imp_right fun ⟨e, he⟩ => ⟨e, Option.some.inj he⟩
  rw [Prog.wp_bind, Prog.wp_tryCatch, Prog.wp_bind, wp_object (s.heap.get_push_self o),
    Prog.wp_bind, wp_newObject_ok]
  refine ⟨fun hstart => absurd hstart (s.lib.not_startFails_enter pl), fun _ => ?_⟩
  rw [Prog.wp_bind]
  refine (wp_setBase (by exact hx)).mpr ?_
  refine hafter _ _ _ _ ((Store.get_put hx _ x).trans (if_pos rfl)) rfl ?_
  rw [Prog.wp_bind, wp_destroyObject pl
    (Store.get_push_of_some (s.heap.get_push_self o) o)]
  refine ⟨fun hc => hterm _ hc, fun _ => ?_⟩
  simpa using hok o (Option.some.inj ho) hs

lemma wp_moveAssign {Q : Unit → Addresses → Prop} {x y : Nat} {a b : Address}
    (hx : s.vars.get x = some a) (hy : s.vars.get y = some b) :
    Prog.wp (moveAssign x y) Q E F s ↔
      Q () { s with vars := (s.vars.put x b).put y ⟨b.m_domain, none⟩ } := by
  simp only [moveAssign, Prog.wp_bind, wp_this hy, wp_setDomain hx]
  have hput := Store.get_put hx { a with m_domain := b.m_domain }
  by_cases hxy : x = y
  · subst hxy
    obtain rfl : a = b := Option.some.inj (hx.symm.trans hy)
    have hx' := (hput x).trans (if_pos rfl)
    rw [wp_this hx', wp_setBase hx']
    simp only [Store.put_put]
    rw [wp_setBase hx']
    simp
  · have hx' := (hput x).trans (if_pos rfl)
    have hy' := ((hput y).trans (if_neg (Ne.symm hxy))).trans hy
    rw [wp_this hy', wp_setBase hx']
    simp only [Store.put_put]
    have hy'' := (Store.get_put hx { a with m_domain := b.m_domain, base := b.base } y).trans
      ((if_neg (Ne.symm hxy)).trans hy)
    rw [wp_setBase hy'']

/-- An address that has been moved from is destroyed without its object. -/
lemma wp_moveAssign_destroy {Q : Unit → Addresses → Prop} {x y : Nat} {a b : Address}
    (hx : s.vars.get x = some a) (hy : s.vars.get y = some b) :
    Prog.wp (do
        moveAssign x y
        destroy pl y) Q E F s ↔
      Q () { s with vars := ((s.vars.put x b).put y ⟨b.m_domain, none⟩).erase y } := by
  have hlive : ∃ c, (s.vars.put x b).get y = some c := by
    rw [Store.get_put hx]
    split
    · exact ⟨b, rfl⟩
    · exact ⟨b, hy⟩
  obtain ⟨c, hc⟩ := hlive
  have hblank := (Store.get_put hc ⟨b.m_domain, none⟩ y).trans (if_pos rfl)
  rw [Prog.wp_bind, wp_moveAssign hx hy, destroy, Prog.wp_bind, wp_this hblank, Prog.wp_bind,
    wp_deleteBase_none, Prog.wp_modify]

lemma wp_move {Q : Nat → Addresses → Prop} {y : Nat} {b : Address} (hy : s.vars.get y = some b) :
    Prog.wp (move y) Q E F s ↔
      Q s.vars.next { s with vars := (s.vars.push b).put y ⟨b.m_domain, none⟩ } := by
  have hy' := Store.get_push_of_some hy ⟨0, none⟩
  have hnew := s.vars.get_push_self ⟨0, none⟩
  rw [move, Prog.wp_bind, wp_this hy, wp_construct, Prog.wp_bind, wp_this hy', Prog.wp_bind,
    wp_setDomain hnew]
  simp only [Store.push_put_next, Prog.wp_bind]
  rw [wp_setBase (s.vars.get_push_self _)]
  simp only [Store.push_put_next]
  rw [wp_setBase (Store.get_push_of_some hy _)]

lemma wp_copy_set {Q : Nat → Addresses → Prop} {fr : Frame} {y q : Nat} {b : Address}
    {o : AddressObject} (hy : s.vars.get y = some b) (hb : b.base = some q)
    (ho : s.heap.get q = some o) :
    Prog.wp (copy pl fr y) Q E F s ↔
      (∀ st, o.toSockaddrStorage pl fr = some st →
        Prog.wp (ofStorage pl st o.size) Q E F s) ∧
      (o.toSockaddrStorage pl fr = none → F .outOfBounds) := by
  have hy' : ({ s with vars := s.vars.push ⟨0, none⟩ } : Addresses).vars.get y = some b :=
    Store.get_push_of_some hy ⟨0, none⟩
  rw [copy, Prog.wp_bind, wp_this hy, wp_construct, Prog.wp_bind, wp_size_some hy' hb ho,
    if_pos o.size_pos, Prog.wp_bind, wp_toSockaddrStorage pl hy' hb ho]
  refine and_congr_left' (forall₂_congr fun st _ => ?_)
  rw [Prog.wp_bind, wp_size_some hy' hb ho, ofStorage, wp_construct]

lemma wp_copy_blank {Q : Nat → Addresses → Prop} {fr : Frame} {y : Nat} {b : Address}
    (hy : s.vars.get y = some b) (hb : b.base = none) :
    Prog.wp (copy pl fr y) Q E F s ↔
      Q s.vars.next { s with vars := s.vars.push ⟨b.m_domain, none⟩ } := by
  have hy' : ({ s with vars := s.vars.push ⟨0, none⟩ } : Addresses).vars.get y = some b :=
    Store.get_push_of_some hy ⟨0, none⟩
  rw [copy, Prog.wp_bind, wp_this hy, wp_construct, Prog.wp_bind, wp_size_none hy' hb,
    if_neg (Nat.lt_irrefl 0), Prog.wp_bind, wp_this hy', wp_setDomain (s.vars.get_push_self _)]
  simp

lemma wp_copyAssign_set {Q : Unit → Addresses → Prop} {fr : Frame} {x y q : Nat} {b : Address}
    {o : AddressObject} (hy : s.vars.get y = some b) (hb : b.base = some q)
    (ho : s.heap.get q = some o) :
    Prog.wp (copyAssign pl fr x y) Q E F s ↔
      (∀ st, o.toSockaddrStorage pl fr = some st →
        Prog.wp (assign pl x st o.size) Q E F s) ∧
      (o.toSockaddrStorage pl fr = none → F .outOfBounds) := by
  rw [copyAssign, Prog.wp_bind, wp_size_some hy hb ho, if_pos o.size_pos, Prog.wp_bind,
    wp_toSockaddrStorage pl hy hb ho]
  refine and_congr_left' (forall₂_congr fun st _ => ?_)
  rw [Prog.wp_bind, wp_size_some hy hb ho]

lemma wp_copyAssign_blank {Q : Unit → Addresses → Prop} {fr : Frame} {x y : Nat} {b : Address}
    (hy : s.vars.get y = some b) (hb : b.base = none) :
    Prog.wp (copyAssign pl fr x y) Q E F s ↔
      (∀ a, s.vars.get x = some a →
        Prog.wp (deleteBase pl a.base) Q E F
          { s with vars := s.vars.put x { a with m_domain := b.m_domain } }) ∧
      (s.vars.get x = none → F .danglingPointer) := by
  rw [copyAssign, Prog.wp_bind, wp_size_none hy hb, if_neg (Nat.lt_irrefl 0), Prog.wp_bind,
    wp_this hy, Prog.wp_bind]
  cases hx : s.vars.get x with
  | none => simp [setDomain, wp_this_iff, hx]
  | some a =>
    rw [wp_setDomain hx, Prog.wp_bind, wp_this ((Store.get_put hx _ x).trans (if_pos rfl))]
    simp

lemma wp_equals_set {Q : Bool → Addresses → Prop} {x y p q : Nat} {l r : Address} {f : Family}
    {lo ro : AddressObject} {v : Bool} (hl : s.vars.get x = some l) (hr : s.vars.get y = some r)
    (hd : l.m_domain = r.m_domain) (hf : pl.familyOf l.m_domain = some f)
    (hlb : l.base = some p) (hrb : r.base = some q) (hlo : s.heap.get p = some lo)
    (hro : s.heap.get q = some ro) (hv : AddressObject.equals f lo ro = some v) :
    Prog.wp (equals pl x y) Q E F s ↔ Q v s := by
  have hf' : pl.familyOf r.m_domain = some f := hd ▸ hf
  simp [equals, wp_this hl, wp_this hr, hd, hlb, hrb, hf', wp_dereference hlo,
    wp_dereference hro, hv]

end Members

end Addresses

end SockLib
