import SockLib.Model.AddressUse
import SockLib.Model.NumericHost
import SockLib.Proofs.Decoding
import SockLib.Proofs.Ordering
import SockLib.Proofs.SocketRules

/-!
# Blank addresses as operands

An address without an object is a legal value, whether it has been constructed so or moved
from. The comparison operators, `size` and `addressDomain` look at the pointer before they
follow it. The casts and `name` do not, and `bind`, `connect` and `send` cast first.
-/

namespace SockLib

variable {pl : Platform}

/-! ### Members of a socket -/

namespace World

variable {s : World} {x : Nat} {st : SockaddrStorage}

/-- The program changes no address, and its only fault is an answer that no system gives. -/
def Keeps (m : SockProg Unit) (s : World) : Prop :=
  Prog.wp m (fun _ t => t.addr = s.addr) (fun _ t => t.addr = s.addr) (· = .noSuchAnswer) s

lemma bind_keeps {v : Socket} (hx : s.socks.get x = some v) (len : Nat)
    (answer : Except Int Unit) : Keeps (bind pl x st len answer) s := by
  rw [Keeps, bind, Prog.wp_bind, wp_this hx]
  by_cases hd : ssFamily pl st = v.m_domain
  · simp only [hd, ne_eq, not_true_eq_false, if_false, Prog.wp_bind]
    rw [wp_request hx]
    refine ⟨fun _ _ => ?_, fun _ _ => rfl⟩
    rw [wp_kernelStep]
    exact ⟨fun _ _ => rfl, fun _ => rfl⟩
  · simp only [hd, ne_eq, not_false_eq_true, if_true, Prog.wp_bind, Prog.wp_raise]

lemma connect_keeps {v : Socket} (hx : s.socks.get x = some v) (len : Nat)
    (answer : Except Int Unit) : Keeps (connect pl x st len answer) s := by
  rw [Keeps, connect, wp_request hx]
  exact ⟨fun _ _ => rfl, fun _ _ => rfl⟩

lemma sendLoop_keeps {v : Socket} (hx : s.socks.get x = some v)
    (call : Int → List UInt8 → Call) (data : List UInt8) (sent : Nat)
    (answers : List (Except Int Nat)) : Keeps (sendLoop pl x call data sent answers) s := by
  induction answers generalizing s sent with
  | nil =>
    rw [Keeps, sendLoop]
    by_cases hlt : sent < data.length
    · simp [hlt]
    · simp [hlt]
  | cons answer answers ih =>
    rw [Keeps, sendLoop]
    by_cases hlt : sent < data.length
    · rw [if_pos hlt, Prog.wp_bind, wp_request hx]
      refine ⟨fun r _ => ?_, fun _ _ => rfl⟩
      exact ih (s := s.called _) hx (sent + r)
    · rw [if_neg hlt, Prog.wp_pure]

end World

/-! ### The condition -/

/-- The address holds an object that can be cast to a C structure. -/
def Addresses.Encodable (pl : Platform) (s : Addresses) (x : Nat) : Prop :=
  ∃ o, s.objectOf x = some o ∧ o.Fits pl

namespace AddressUse

def operands : AddressUse → List Nat
  | .toSockaddrStorage _ x => [x]
  | .size x => [x]
  | .castTo _ x => [x]
  | .equals x y => [x, y]
  | .notEquals x y => [x, y]
  | .less x y => [x, y]
  | .addressDomain x => [x]
  | .name x => [x]
  | .bind _ _ x _ => [x]
  | .connect _ _ x _ => [x]
  | .send _ _ _ x _ _ => [x]

def socket : AddressUse → Option Nat
  | .bind z _ _ _ => some z
  | .connect z _ _ _ => some z
  | .send z _ _ _ _ _ => some z
  | _ => none

/-- The operands and the socket are live objects. -/
def Refers (s : World) (u : AddressUse) : Prop :=
  (∀ x ∈ u.operands, s.addr.Live x) ∧ ∀ z, u.socket = some z → ∃ v, s.socks.get z = some v

variable (pl) in
/-- The condition: what follows the pointer without a look at it is given an address with an
object, which has to fit where it is cast to a C structure. -/
def OperandsSet (s : Addresses) : AddressUse → Prop
  | .toSockaddrStorage _ x => s.Encodable pl x
  | .castTo f x => (∃ a, s.vars.get x = some a ∧ a.m_domain ≠ pl.domainOf f) ∨
      ∃ o, s.objectOf x = some o
  | .name x => ∃ o, s.objectOf x = some o
  | .bind _ _ x _ => s.Encodable pl x
  | .connect _ _ x _ => s.Encodable pl x
  | .send _ _ _ x _ _ => s.Encodable pl x
  | _ => True

variable (pl) in
/-- The operation returns or throws. -/
def Completes (s : World) (u : AddressUse) : Prop :=
  ∀ k, u.exec pl s = .fault k → k = .noSuchAnswer

end AddressUse

/-! ### One operation -/

namespace Addresses

variable {s : Addresses} {x y : Nat} {o : AddressObject}

lemma this_eq {a : Address} (hx : s.vars.get x = some a) : this x s = .ok a s := by
  change Prog.demand (s.vars.get x) Fault.danglingPointer s = _
  rw [hx]
  rfl

/-- A live address is blank, or it holds an object. -/
lemma blank_or_holds (h : Owning pl s) (hx : s.Live x) :
    (∃ a, s.vars.get x = some a ∧ a.base = none ∧ s.objectOf x = none) ∨
      ∃ o, s.Holds pl x o ∧ s.objectOf x = some o := by
  obtain ⟨a, ha⟩ := hx
  rcases h.objectOf ha with ⟨hb, hobj⟩ | ⟨p, o, hb, ho, hobj⟩
  · exact Or.inl ⟨a, ha, hb, hobj⟩
  · obtain ⟨o', ho', hd⟩ := h.target x a p ha hb
    obtain rfl := Option.some.inj (ho.symm.trans ho')
    exact Or.inr ⟨o, ⟨a, p, ha, hd, hb, ho⟩, hobj⟩

lemma toSockaddrStorage_blank {a : Address} (hx : s.vars.get x = some a) (hb : a.base = none)
    (fr : Frame) : toSockaddrStorage pl fr x s = .fault .nullPointer := by
  refine (Prog.bind_of_ok (this_eq hx)).trans ?_
  rw [hb]
  rfl

lemma name_blank {a : Address} (hx : s.vars.get x = some a) (hb : a.base = none) :
    name x s = .fault .nullPointer := by
  refine (Prog.bind_of_ok (this_eq hx)).trans ?_
  rw [hb]
  rfl

lemma castTo_blank {a : Address} {f : Family} (hx : s.vars.get x = some a) (hb : a.base = none)
    (hd : a.m_domain = pl.domainOf f) : castTo pl f x s = .fault .nullPointer := by
  refine (Prog.bind_of_ok (this_eq hx)).trans ?_
  rw [if_neg (not_not_intro hd), hb]
  rfl

/-- The cast to a C structure succeeds on an encodable address, and faults on any other. -/
lemma toSockaddrStorage_cases (h : Owning pl s) (hx : s.Live x) (fr : Frame) :
    (s.Encodable pl x ∧ ∃ o st, s.Holds pl x o ∧ o.toSockaddrStorage pl fr = some st) ∨
      (¬s.Encodable pl x ∧ ∃ k, k ≠ .noSuchAnswer ∧ toSockaddrStorage pl fr x s = .fault k) := by
  rcases blank_or_holds h hx with ⟨a, ha, hb, hobj⟩ | ⟨o, hh, hobj⟩
  · refine Or.inr ⟨?_, .nullPointer, by decide, toSockaddrStorage_blank ha hb fr⟩
    rintro ⟨o, ho, -⟩
    rw [hobj] at ho
    cases ho
  · cases hst : o.toSockaddrStorage pl fr with
    | some st => exact Or.inl ⟨⟨o, hobj, fits_of_toSockaddrStorage hst⟩, o, st, hh, hst⟩
    | none =>
      refine Or.inr ⟨?_, .outOfBounds, by decide, ?_⟩
      · rintro ⟨o', ho', hfit⟩
        obtain rfl := Option.some.inj (hobj.symm.trans ho')
        obtain ⟨st, hst', -⟩ := AddressObject.toSockaddrStorage_encoded hfit fr
        rw [hst] at hst'
        cases hst'
      · obtain ⟨a, p, ha, -, hp, ho⟩ := hh
        refine (Prog.bind_of_ok (this_eq ha)).trans ?_
        rw [hp]
        have hderef : dereference (some p) s = .ok o s := by
          apply Prog.eq_ok_of_wp
          rw [wp_dereference ho]
          exact ⟨rfl, rfl⟩
        refine (Prog.bind_of_ok hderef).trans ?_
        rw [hst]
        rfl

lemma Holds.name (h : s.Holds pl x o) : Addresses.name x s = .ok o.name s := by
  obtain ⟨a, p, ha, -, hp, ho⟩ := h
  apply Prog.eq_ok_of_wp
  rw [Addresses.name, Prog.wp_bind, wp_this ha, hp, Prog.wp_bind, wp_dereference ho]
  exact ⟨rfl, rfl⟩

/-- The invariant is kept, and there is no fault of the program's own. -/
def Sound (pl : Platform) {α : Type} (m : AddrProg α) (s : Addresses) : Prop :=
  Prog.wp m (fun _ => Owning pl) (fun _ => Owning pl) (· = .noSuchAnswer) s

lemma size_sound (h : Owning pl s) (hx : s.Live x) : Sound pl (size x) s := by
  rcases blank_or_holds h hx with ⟨a, ha, hb, -⟩ | ⟨o, hh, -⟩
  · rw [Sound, wp_size_none ha hb]
    exact h
  · exact Prog.wp_of_eq_ok hh.size h

lemma equals_sound (h : Owning pl s) (hx : s.Live x) (hy : s.Live y) :
    Sound pl (equals pl x y) s := by
  obtain ⟨a, ha⟩ := hx
  obtain ⟨b, hb⟩ := hy
  apply wp_equals h ha hb
  exact h

lemma notEquals_sound (h : Owning pl s) (hx : s.Live x) (hy : s.Live y) :
    Sound pl (notEquals pl x y) s := by
  obtain ⟨a, ha⟩ := hx
  obtain ⟨b, hb⟩ := hy
  rw [Sound, notEquals, Prog.wp_bind]
  apply wp_equals h ha hb
  exact h

lemma less_sound (h : Owning pl s) (hx : s.Live x) (hy : s.Live y) :
    Sound pl (less pl x y) s := by
  obtain ⟨a, ha⟩ := hx
  obtain ⟨b, hb⟩ := hy
  apply wp_less h ha hb
  exact h

lemma addressDomain_sound (h : Owning pl s) (hx : s.Live x) : Sound pl (addressDomain x) s := by
  obtain ⟨a, ha⟩ := hx
  rw [Sound, addressDomain, Prog.wp_bind, wp_this ha]
  exact h

/-- `name` of a blank address follows the null pointer. -/
lemma name_cases (h : Owning pl s) (hx : s.Live x) :
    ((∃ o, s.objectOf x = some o) ∧ Sound pl (name x) s) ∨
      ((¬∃ o, s.objectOf x = some o) ∧ name x s = .fault .nullPointer) := by
  rcases blank_or_holds h hx with ⟨a, ha, hb, hobj⟩ | ⟨o, hh, hobj⟩
  · exact Or.inr ⟨by simp [hobj], name_blank ha hb⟩
  · exact Or.inl ⟨⟨o, hobj⟩, Prog.wp_of_eq_ok hh.name h⟩

/-- A cast to a class checks the domain, and follows the pointer where it is that of the class. -/
lemma castTo_cases (h : Owning pl s) (hx : s.Live x) (f : Family) :
    (((∃ a, s.vars.get x = some a ∧ a.m_domain ≠ pl.domainOf f) ∨ ∃ o, s.objectOf x = some o) ∧
        Sound pl (castTo pl f x) s) ∨
      (¬((∃ a, s.vars.get x = some a ∧ a.m_domain ≠ pl.domainOf f) ∨
          ∃ o, s.objectOf x = some o) ∧ castTo pl f x s = .fault .nullPointer) := by
  obtain ⟨a, ha⟩ := hx
  by_cases hd : a.m_domain = pl.domainOf f
  · rcases blank_or_holds h ⟨a, ha⟩ with ⟨a', ha', hb, hobj⟩ | ⟨o, hh, hobj⟩
    · obtain rfl := Option.some.inj (ha.symm.trans ha')
      refine Or.inr ⟨?_, castTo_blank ha hb hd⟩
      rintro (⟨a', ha', hne⟩ | ⟨o, ho⟩)
      · obtain rfl := Option.some.inj (ha.symm.trans ha')
        exact hne hd
      · rw [hobj] at ho
        cases ho
    · refine Or.inl ⟨Or.inr ⟨o, hobj⟩, ?_⟩
      obtain ⟨a', p, ha', -, hp, ho⟩ := hh
      obtain rfl := Option.some.inj (ha.symm.trans ha')
      rw [Sound, castTo, Prog.wp_bind, wp_this ha, if_neg (not_not_intro hd), hp]
      simp only [Prog.wp_bind]
      rw [wp_dereference ho, wp_newObject_ok]
      exact ⟨fun _ => h.congr (fun _ => rfl) (fun _ => rfl), fun _ => h.pushObject _ o⟩
  · refine Or.inl ⟨Or.inl ⟨a, ha, hd⟩, ?_⟩
    rw [Sound, castTo, Prog.wp_bind, wp_this ha, if_pos hd]
    exact h

end Addresses

namespace AddressUse

variable {s : World}

variable (pl) in
/-- The invariant is kept, and there is no fault of the program's own. -/
def Sound (m : SockProg Unit) (s : World) : Prop :=
  Prog.wp m (fun _ t => Owning pl t.addr) (fun _ t => Owning pl t.addr) (· = .noSuchAnswer) s

lemma sound_of_addresses {α : Type} {m : AddrProg α} (hm : Addresses.Sound pl m s.addr) :
    Sound pl (discard (World.addresses m)) s := by
  rw [Sound, World.wp_discard, World.wp_addresses]
  exact hm

lemma fault_of_addresses {α : Type} {m : AddrProg α} {k : Fault} (hm : m s.addr = .fault k) :
    discard (World.addresses m) s = .fault k :=
  Prog.bind_of_fault (Prog.zoom_of_fault hm)

/-- A member that takes an address casts it first. -/
lemma passed_cases (h : Owning pl s.addr) {x : Nat} (hx : s.addr.Live x) (fr : Frame)
    {m : SockaddrStorage → Nat → SockProg Unit} (hm : ∀ st len, World.Keeps (m st len) s) :
    (s.addr.Encodable pl x ∧ Sound pl (do
        let addr ← World.addresses (Addresses.toSockaddrStorage pl fr x)
        let len ← World.addresses (Addresses.size x)
        m addr len) s) ∨
      (¬s.addr.Encodable pl x ∧ ∃ k, k ≠ .noSuchAnswer ∧ (do
        let addr ← World.addresses (Addresses.toSockaddrStorage pl fr x)
        let len ← World.addresses (Addresses.size x)
        m addr len) s = .fault k) := by
  rcases Addresses.toSockaddrStorage_cases h hx fr with ⟨henc, o, st, hh, hst⟩ | ⟨henc, k, hk, hf⟩
  · refine Or.inl ⟨henc, ?_⟩
    have hkeeps : Sound pl (m st o.size) s := by
      apply Prog.wp_mono (hm st o.size)
      · intro _ t ht
        rw [ht]
        exact h
      · intro _ t ht
        rw [ht]
        exact h
      · exact fun _ hk => hk
    rw [Sound, Prog.wp, World.ofAddress_eq hh hst]
    exact hkeeps
  · exact Or.inr ⟨henc, k, hk, Prog.bind_of_fault (Prog.zoom_of_fault hf)⟩

/-- Where the condition is met the operation completes and keeps the invariant, and elsewhere
it faults. -/
lemma exec_cases (h : Owning pl s.addr) {u : AddressUse} (hr : u.Refers s) :
    (u.OperandsSet pl s.addr ∧ Sound pl (u.exec pl) s) ∨
      (¬u.OperandsSet pl s.addr ∧ ∃ k, k ≠ .noSuchAnswer ∧ u.exec pl s = .fault k) := by
  obtain ⟨hlive, hsock⟩ := hr
  cases u with
  | toSockaddrStorage fr x =>
    rcases Addresses.toSockaddrStorage_cases h (hlive x (List.mem_singleton_self x)) fr with
      ⟨henc, o, st, hh, hst⟩ | ⟨henc, k, hk, hf⟩
    · refine Or.inl ⟨henc, sound_of_addresses ?_⟩
      exact Prog.wp_of_eq_ok (hh.toSockaddrStorage hst) h
    · exact Or.inr ⟨henc, k, hk, fault_of_addresses hf⟩
  | size x =>
    exact Or.inl ⟨trivial, sound_of_addresses
      (Addresses.size_sound h (hlive x (List.mem_singleton_self x)))⟩
  | castTo f x =>
    rcases Addresses.castTo_cases h (hlive x (List.mem_singleton_self x)) f with
      ⟨hset, hs⟩ | ⟨hset, hf⟩
    · exact Or.inl ⟨hset, sound_of_addresses hs⟩
    · exact Or.inr ⟨hset, _, by decide, fault_of_addresses hf⟩
  | equals x y =>
    exact Or.inl ⟨trivial, sound_of_addresses (Addresses.equals_sound h
      (hlive x List.mem_cons_self) (hlive y (List.mem_cons_of_mem x List.mem_cons_self)))⟩
  | notEquals x y =>
    exact Or.inl ⟨trivial, sound_of_addresses (Addresses.notEquals_sound h
      (hlive x List.mem_cons_self) (hlive y (List.mem_cons_of_mem x List.mem_cons_self)))⟩
  | less x y =>
    exact Or.inl ⟨trivial, sound_of_addresses (Addresses.less_sound h
      (hlive x List.mem_cons_self) (hlive y (List.mem_cons_of_mem x List.mem_cons_self)))⟩
  | addressDomain x =>
    exact Or.inl ⟨trivial, sound_of_addresses
      (Addresses.addressDomain_sound h (hlive x (List.mem_singleton_self x)))⟩
  | name x =>
    rcases Addresses.name_cases h (hlive x (List.mem_singleton_self x)) with
      ⟨hset, hs⟩ | ⟨hset, hf⟩
    · exact Or.inl ⟨hset, sound_of_addresses hs⟩
    · exact Or.inr ⟨hset, _, by decide, fault_of_addresses hf⟩
  | bind z fr x answer =>
    obtain ⟨v, hz⟩ := hsock z rfl
    exact passed_cases h (hlive x (List.mem_singleton_self x)) fr fun st len =>
      World.bind_keeps hz len answer
  | connect z fr x answer =>
    obtain ⟨v, hz⟩ := hsock z rfl
    exact passed_cases h (hlive x (List.mem_singleton_self x)) fr fun st len =>
      World.connect_keeps hz len answer
  | send z data fr x flags answers =>
    obtain ⟨v, hz⟩ := hsock z rfl
    exact passed_cases h (hlive x (List.mem_singleton_self x)) fr fun st len =>
      World.sendLoop_keeps hz _ data 0 answers

lemma completes_iff (h : Owning pl s.addr) {u : AddressUse} (hr : u.Refers s) :
    u.Completes pl s ↔ u.OperandsSet pl s.addr := by
  rcases exec_cases h hr with ⟨hset, hs⟩ | ⟨hset, k, hk, hf⟩
  · refine iff_of_true (fun k hf => ?_) hset
    rw [Sound, Prog.wp, hf] at hs
    exact hs
  · exact iff_of_false (fun hc => hk (hc k hf)) hset

end AddressUse

/-! ### Runs -/

/-- The runs: addresses are constructed in any way, moved and destroyed, and copied from those
that hold an object; what is used is alive. -/
def OperandOp.InScope (pl : Platform) (s : World) : OperandOp → Prop
  | .build op => SetSource pl s.addr op
  | .use u => u.Refers s

lemma owning_step (hn : pl.NtopTotal) (hs : pl.LibraryWorks) {s t : World} {op : OperandOp}
    (h : Owning pl s.addr) (hop : op.InScope pl s) (hstep : op.step pl s = some t) :
    Owning pl t.addr := by
  refine Prog.resume_of_wp (P := fun t => Owning pl t.addr) (F := fun _ => True) ?_ hstep
  cases op with
  | build op =>
    rw [OperandOp.exec, World.wp_addresses]
    have hkeeps := keepsObject_of_setSource hn hs hop
    exact Prog.wp_mono (exec_owning h op) (fun _ _ ht => ht hkeeps) (fun _ _ ht => ht hkeeps)
      (fun _ _ => trivial)
  | use u =>
    rcases AddressUse.exec_cases h hop with ⟨-, hsound⟩ | ⟨-, k, -, hf⟩
    · exact Prog.wp_mono hsound (fun _ _ ht => ht) (fun _ _ ht => ht) (fun _ _ => trivial)
    · rw [Prog.wp, OperandOp.exec, hf]
      trivial

/-- In every state of such a run, an operation on live addresses returns or throws exactly when
its operands are set. -/
theorem operands_complete_iff (hn : pl.NtopTotal) (hs : pl.LibraryWorks) (s : World)
    (hvars : s.addr.vars = Store.empty) (ops : List OperandOp)
    (hg : Guarded (OperandOp.step pl) (OperandOp.InScope pl) s ops) :
    Along (OperandOp.step pl)
      (fun t => ∀ u : AddressUse, u.Refers t → (u.Completes pl t ↔ u.OperandsSet pl t.addr))
      s ops := by
  have hown : Owning pl s.addr := by
    obtain ⟨⟨l, heap, vars⟩, socks, kernel⟩ := s
    obtain rfl : vars = Store.empty := hvars
    exact Owning.of_vars_empty l heap
  have halong := along_of_guarded (I := fun t => Owning pl t.addr) (G := OperandOp.InScope pl)
    (fun s op t h hop hstep => owning_step hn hs h hop hstep) hown hg
  exact halong.mono fun t h u hu => AddressUse.completes_iff h hu

/-- A pathname that has been moved out of, and the address it has been moved to. -/
def movedPathname : List OperandOp := [.build (.ofString (bytes "/a") 1), .build (.move 0)]

/-- Both addresses are compared, and the one with the object tells its name. -/
theorem operands_complete_iff_linux : Along (OperandOp.step linuxHost)
    (fun t => ∀ u : AddressUse, u.Refers t →
      (u.Completes linuxHost t ↔ u.OperandsSet linuxHost t.addr))
    (World.initial true []) (movedPathname ++ [.use (.name 1), .use (.equals 0 1)]) := by
  refine operands_complete_iff (ntopTotal_numericHost false false true)
    (libraryWorks_numericHost false false true) _ rfl _ ?_
  refine .cons rfl trivial (.cons rfl trivial (.cons rfl ⟨fun x hx => ?_, fun z hz => ?_⟩
    (.cons rfl ⟨fun x hx => ?_, fun z hz => ?_⟩ trivial)))
  · obtain rfl := List.mem_singleton.mp hx
    exact ⟨_, rfl⟩
  · cases hz
  · rcases List.mem_pair.mp hx with rfl | rfl
    exacts [⟨_, rfl⟩, ⟨_, rfl⟩]
  · cases hz

/-- The cast of the address that has been moved out of follows its null pointer. -/
theorem operands_do_not_complete : ¬∀ ops : List OperandOp,
    Guarded (OperandOp.step linuxHost) (OperandOp.InScope linuxHost) (World.initial true []) ops →
    Along (OperandOp.step linuxHost)
      (fun t => ∀ u : AddressUse, u.Refers t → u.Completes linuxHost t)
      (World.initial true []) ops := by
  intro h
  have hg : Guarded (OperandOp.step linuxHost) (OperandOp.InScope linuxHost)
      (World.initial true []) movedPathname := .cons rfl trivial (.cons rfl trivial trivial)
  have hlast := (h movedPathname hg).last rfl (.castTo .unix 0)
  have hnull := hlast ⟨?_, fun z hz => by cases hz⟩ .nullPointer rfl
  · cases hnull
  · intro x hx
    obtain rfl := List.mem_singleton.mp hx
    exact ⟨_, rfl⟩

end SockLib
