import SockLib.Proofs.Ownership
import SockLib.Proofs.RoundTrip

/-!
# Comparison of addresses

The two comparison operators of `sks::address` compare sort keys: the domain, then the
object, null first. The key of an object is its sequence of elements and its port. The keys
are linearly ordered, and the operators inherit the laws of that order in every state that
the operations of the class can reach.
-/

namespace SockLib

variable (pl : Platform)

/-! ### Sort keys -/

lemma UnixAddress.charValue_injective : Function.Injective (charValue pl) := by
  intro c d h
  have hc := c.toNat_lt
  have hd := d.toNat_lt
  apply UInt8.toNat_inj.mp
  unfold charValue at h
  split_ifs at h <;> omega

/-- The elements an object is compared by, and its port. -/
def AddressObject.sortKey : AddressObject → List ℤ ×ₗ ℕ
  | .ipv4 a => toLex (a.m_addr.toList.map (fun c => (c.toNat : ℤ)), a.m_port.toNat)
  | .ipv6 a => toLex (a.m_addr.toList.map (fun c => (c.toNat : ℤ)), a.m_port.toNat)
  | .unix a => toLex (a.m_addr.map (UnixAddress.charValue pl), 0)

/-- The key of an address: its domain, then its object; no object comes first. -/
def Addresses.sortKey (s : Addresses) (a : Address) : ℕ ×ₗ WithBot (List ℤ ×ₗ ℕ) :=
  toLex (a.m_domain, match a.base.bind s.heap.get with
    | some o => (o.sortKey pl : WithBot (List ℤ ×ₗ ℕ))
    | none => ⊥)

lemma toNat_injective8 : Function.Injective (fun c : UInt8 => (c.toNat : ℤ)) := by
  intro c d h
  exact UInt8.toNat_inj.mp (by simpa using h)

lemma toNat_injective16 : Function.Injective (fun c : UInt16 => (c.toNat : ℤ)) := by
  intro c d h
  exact UInt16.toNat_inj.mp (by simpa using h)

/-- `operator==` of each class compares keys. -/
lemma AddressObject.equals_eq {o o' : AddressObject} (h : o.family = o'.family) :
    AddressObject.equals o.family o o' = some (decide (o.sortKey pl = o'.sortKey pl)) := by
  cases o <;> cases o' <;> cases h
  case ipv4.ipv4 l r =>
    simp [equals, sortKey, family, IPv4Address.equals, eq_iff_key toNat_injective8,
      UInt16.toNat_inj, List.Vector.toList_injective.eq_iff]
  case ipv6.ipv6 l r =>
    simp [equals, sortKey, family, IPv6Address.equals, eq_iff_key toNat_injective16,
      UInt16.toNat_inj, List.Vector.toList_injective.eq_iff]
  case unix.unix l r =>
    simp [equals, sortKey, family, UnixAddress.equals,
      eq_iff_key (UnixAddress.charValue_injective pl)]

/-- `operator<` of each class compares keys. -/
lemma AddressObject.less_eq {o o' : AddressObject} (h : o.family = o'.family) :
    AddressObject.less pl o.family o o' = some (decide (o.sortKey pl < o'.sortKey pl)) := by
  cases o <;> cases o' <;> cases h
  case ipv4.ipv4 l r =>
    have hless : ∀ c d : UInt8, decide (c < d) = true ↔ (c.toNat : ℤ) < (d.toNat : ℤ) := by
      simp [UInt8.lt_iff_toNat_lt]
    have hkey := lexLess_then_iff hless toNat_injective8 l.m_addr.toList r.m_addr.toList
      l.m_port.toNat r.m_port.toNat
    refine congrArg some (Bool.eq_iff_iff.mpr ?_)
    rw [decide_eq_true_iff, sortKey, sortKey, ← hkey, IPv4Address.less]
    simp only [ne_eq, List.Vector.toList_injective.eq_iff, UInt16.lt_iff_toNat_lt]
  case ipv6.ipv6 l r =>
    have hless : ∀ c d : UInt16, decide (c < d) = true ↔ (c.toNat : ℤ) < (d.toNat : ℤ) := by
      simp [UInt16.lt_iff_toNat_lt]
    have hkey := lexLess_then_iff hless toNat_injective16 l.m_addr.toList r.m_addr.toList
      l.m_port.toNat r.m_port.toNat
    refine congrArg some (Bool.eq_iff_iff.mpr ?_)
    rw [decide_eq_true_iff, sortKey, sortKey, ← hkey, IPv6Address.less]
    simp only [ne_eq, List.Vector.toList_injective.eq_iff, UInt16.lt_iff_toNat_lt]
  case unix.unix l r =>
    have hless : ∀ c d, decide (UnixAddress.charValue pl c < UnixAddress.charValue pl d) = true ↔
        UnixAddress.charValue pl c < UnixAddress.charValue pl d := by simp
    refine congrArg some (Bool.eq_iff_iff.mpr ?_)
    rw [decide_eq_true_iff, sortKey, sortKey, Prod.Lex.toLex_lt_toLex, UnixAddress.less,
      lexLess_iff_key hless]
    simp

namespace Addresses

variable {pl} {s : Addresses}

lemma sortKey_none {a : Address} (hb : a.base = none) :
    s.sortKey pl a = toLex (a.m_domain, ⊥) := by
  simp [sortKey, hb]

lemma sortKey_some {a : Address} {p : Nat} {o : AddressObject} (hb : a.base = some p)
    (ho : s.heap.get p = some o) :
    s.sortKey pl a = toLex (a.m_domain, (o.sortKey pl : WithBot (List ℤ ×ₗ ℕ))) := by
  simp [sortKey, hb, ho]

lemma base_cases (h : Owning pl s) {x : Nat} {a : Address} (hx : s.vars.get x = some a) :
    a.base = none ∨ ∃ p o, a.base = some p ∧ s.heap.get p = some o ∧
      pl.familyOf a.m_domain = some o.family := by
  cases hb : a.base with
  | none => exact Or.inl rfl
  | some p =>
    obtain ⟨o, ho, hd⟩ := h.target x a p hx hb
    exact Or.inr ⟨p, o, rfl, ho, pl.familyOf_eq_some.mpr hd⟩

/-- Equality of addresses is equality of their keys. -/
lemma wp_equals (h : Owning pl s) {x y : Nat} {a b : Address} (hx : s.vars.get x = some a)
    (hy : s.vars.get y = some b) {Q : Bool → Addresses → Prop} {E : Exn → Addresses → Prop}
    {F : Fault → Prop} (hQ : Q (decide (s.sortKey pl a = s.sortKey pl b)) s) :
    Prog.wp (equals pl x y) Q E F s := by
  rw [equals, Prog.wp_bind, wp_this hx, Prog.wp_bind, wp_this hy]
  by_cases hd : a.m_domain = b.m_domain
  · rw [if_pos hd]
    rcases base_cases h hx with ha | ⟨p, o, hp, ho, hf⟩
    · rcases base_cases h hy with hb | ⟨q, o', hq, ho', hf'⟩
      · simpa [ha, hb, sortKey_none ha, sortKey_none hb, hd] using hQ
      · simpa [ha, hq, sortKey_none ha, sortKey_some hq ho', hd] using hQ
    · rcases base_cases h hy with hb | ⟨q, o', hq, ho', hf'⟩
      · simpa [hp, hb, sortKey_some hp ho, sortKey_none hb, hd] using hQ
      · have hfam : o.family = o'.family := by
          rw [hd, hf'] at hf
          exact (Option.some.inj hf).symm
        rw [if_neg (by simp [hp, hq]), hf, hp, hq, Prog.wp_bind, wp_dereference ho, Prog.wp_bind,
          wp_dereference ho', AddressObject.equals_eq pl hfam, Prog.wp_demand_some]
        simpa [sortKey_some hp ho, sortKey_some hq ho', hd] using hQ
  · rw [if_neg hd]
    have hne : s.sortKey pl a ≠ s.sortKey pl b := fun he => hd (congrArg (fun k => (ofLex k).1) he)
    simpa [hne] using hQ

/-- The order of addresses is the order of their keys. -/
lemma wp_less (h : Owning pl s) {x y : Nat} {a b : Address} (hx : s.vars.get x = some a)
    (hy : s.vars.get y = some b) {Q : Bool → Addresses → Prop} {E : Exn → Addresses → Prop}
    {F : Fault → Prop} (hQ : Q (decide (s.sortKey pl a < s.sortKey pl b)) s) :
    Prog.wp (less pl x y) Q E F s := by
  rw [less, Prog.wp_bind, wp_this hx, Prog.wp_bind, wp_this hy]
  by_cases hd : a.m_domain = b.m_domain
  · rw [if_neg (not_not_intro hd)]
    rcases base_cases h hx with ha | ⟨p, o, hp, ho, hf⟩
    · rcases base_cases h hy with hb | ⟨q, o', hq, ho', hf'⟩
      · simpa [ha, hb, sortKey_none ha, sortKey_none hb, hd, pointerLess] using hQ
      · simpa [ha, hq, sortKey_none ha, sortKey_some hq ho', hd, pointerLess,
          Prod.Lex.toLex_lt_toLex] using hQ
    · rcases base_cases h hy with hb | ⟨q, o', hq, ho', hf'⟩
      · simpa [hp, hb, sortKey_some hp ho, sortKey_none hb, hd, pointerLess,
          Prod.Lex.toLex_lt_toLex] using hQ
      · have hfam : o.family = o'.family := by
          rw [hd, hf'] at hf
          exact (Option.some.inj hf).symm
        rw [if_neg (by simp [hp, hq]), hf, hp, hq, Prog.wp_bind, wp_dereference ho, Prog.wp_bind,
          wp_dereference ho', AddressObject.less_eq pl hfam, Prog.wp_demand_some]
        simpa [sortKey_some hp ho, sortKey_some hq ho', hd, Prod.Lex.toLex_lt_toLex] using hQ
  · rw [if_pos hd]
    have hlt : s.sortKey pl a < s.sortKey pl b ↔ a.m_domain < b.m_domain := by
      unfold sortKey
      rw [Prod.Lex.toLex_lt_toLex]
      exact ⟨fun ho => ho.resolve_right fun hand => hd hand.1, Or.inl⟩
    simpa [hlt] using hQ

lemma equals_of_owning (h : Owning pl s) {x y : Nat} {a b : Address}
    (hx : s.vars.get x = some a) (hy : s.vars.get y = some b) :
    equals pl x y s = .ok (decide (s.sortKey pl a = s.sortKey pl b)) s :=
  Prog.eq_ok_of_wp (wp_equals h hx hy ⟨rfl, rfl⟩)

lemma less_of_owning (h : Owning pl s) {x y : Nat} {a b : Address}
    (hx : s.vars.get x = some a) (hy : s.vars.get y = some b) :
    less pl x y s = .ok (decide (s.sortKey pl a < s.sortKey pl b)) s :=
  Prog.eq_ok_of_wp (wp_less h hx hy ⟨rfl, rfl⟩)

/-! ### The laws of the operators -/

def Live (s : Addresses) (x : Nat) : Prop := ∃ a, s.vars.get x = some a

variable (pl) in
def Same (s : Addresses) (x y : Nat) : Prop := equals pl x y s = .ok true s

variable (pl) in
def Before (s : Addresses) (x y : Nat) : Prop := less pl x y s = .ok true s

variable (pl) in
/-- The laws that make addresses usable as the keys of a map. -/
structure MapKeys (s : Addresses) : Prop where
  returns : ∀ x y, s.Live x → s.Live y →
    (∃ v, equals pl x y s = .ok v s) ∧ ∃ v, less pl x y s = .ok v s
  trichotomy : ∀ x y, s.Live x → s.Live y →
    (s.Before pl x y ∧ ¬s.Before pl y x ∧ ¬s.Same pl x y) ∨
    (¬s.Before pl x y ∧ s.Before pl y x ∧ ¬s.Same pl x y) ∨
    (¬s.Before pl x y ∧ ¬s.Before pl y x ∧ s.Same pl x y)
  same_refl : ∀ x, s.Live x → s.Same pl x x
  same_symm : ∀ x y, s.Live x → s.Live y → s.Same pl x y → s.Same pl y x
  same_trans : ∀ x y z, s.Live x → s.Live y → s.Live z →
    s.Same pl x y → s.Same pl y z → s.Same pl x z
  before_trans : ∀ x y z, s.Live x → s.Live y → s.Live z →
    s.Before pl x y → s.Before pl y z → s.Before pl x z
  congr : ∀ x y z, s.Live x → s.Live y → s.Live z → s.Same pl x y →
    equals pl x z s = equals pl y z s ∧ equals pl z x s = equals pl z y s ∧
      less pl x z s = less pl y z s ∧ less pl z x s = less pl z y s

lemma mapKeys_of_owning (h : Owning pl s) : MapKeys pl s := by
  have heq : ∀ x y a b, s.vars.get x = some a → s.vars.get y = some b →
      equals pl x y s = .ok (decide (s.sortKey pl a = s.sortKey pl b)) s :=
    fun x y a b hx hy => equals_of_owning h hx hy
  have hlt : ∀ x y a b, s.vars.get x = some a → s.vars.get y = some b →
      less pl x y s = .ok (decide (s.sortKey pl a < s.sortKey pl b)) s :=
    fun x y a b hx hy => less_of_owning h hx hy
  have hsame : ∀ x y a b, s.vars.get x = some a → s.vars.get y = some b →
      (s.Same pl x y ↔ s.sortKey pl a = s.sortKey pl b) := by
    intro x y a b hx hy
    simp [Same, heq x y a b hx hy]
  have hbefore : ∀ x y a b, s.vars.get x = some a → s.vars.get y = some b →
      (s.Before pl x y ↔ s.sortKey pl a < s.sortKey pl b) := by
    intro x y a b hx hy
    simp [Before, hlt x y a b hx hy]
  constructor
  · rintro x y ⟨a, hx⟩ ⟨b, hy⟩
    exact ⟨⟨_, heq x y a b hx hy⟩, _, hlt x y a b hx hy⟩
  · rintro x y ⟨a, hx⟩ ⟨b, hy⟩
    rw [hbefore x y a b hx hy, hbefore y x b a hy hx, hsame x y a b hx hy]
    rcases lt_trichotomy (s.sortKey pl a) (s.sortKey pl b) with hl | he | hg
    · exact Or.inl ⟨hl, hl.asymm, hl.ne⟩
    · exact Or.inr (Or.inr ⟨he.not_lt, he.not_gt, he⟩)
    · exact Or.inr (Or.inl ⟨hg.asymm, hg, hg.ne'⟩)
  · rintro x ⟨a, hx⟩
    exact (hsame x x a a hx hx).mpr rfl
  · rintro x y ⟨a, hx⟩ ⟨b, hy⟩ hxy
    exact (hsame y x b a hy hx).mpr ((hsame x y a b hx hy).mp hxy).symm
  · rintro x y z ⟨a, hx⟩ ⟨b, hy⟩ ⟨c, hz⟩ hxy hyz
    exact (hsame x z a c hx hz).mpr
      (((hsame x y a b hx hy).mp hxy).trans ((hsame y z b c hy hz).mp hyz))
  · rintro x y z ⟨a, hx⟩ ⟨b, hy⟩ ⟨c, hz⟩ hxy hyz
    exact (hbefore x z a c hx hz).mpr
      (((hbefore x y a b hx hy).mp hxy).trans ((hbefore y z b c hy hz).mp hyz))
  · rintro x y z ⟨a, hx⟩ ⟨b, hy⟩ ⟨c, hz⟩ hxy
    have hkey := (hsame x y a b hx hy).mp hxy
    simp only [heq _ _ _ _ hx hz, heq _ _ _ _ hy hz, heq _ _ _ _ hz hx, heq _ _ _ _ hz hy,
      hlt _ _ _ _ hx hz, hlt _ _ _ _ hy hz, hlt _ _ _ _ hz hx, hlt _ _ _ _ hz hy, hkey,
      and_self]

end Addresses

/-- Construction of every kind, move assignment, destruction, and copy assignment from an
address that is not blank; `assign` where it cannot fail. -/
def SetSource (s : Addresses) : AddressOp → Prop
  | .copyAssign _ _ y => ∃ o, s.objectOf y = some o
  | .assign x st len => Blank s x ∨ Addresses.Makes pl s.lib.leave st len
  | _ => True

variable {pl}

lemma keepsObject_of_setSource (hn : pl.NtopTotal) (hs : pl.LibraryWorks) {s : Addresses}
    {op : AddressOp} (h : SetSource pl s op) : KeepsObject pl s op := by
  cases op with
  | copyAssign fr x y =>
    obtain ⟨o, ho⟩ := h
    exact Or.inr ⟨o, ho, fun st hst => makes_of_toSockaddrStorage hn hs hst _⟩
  | assign x st len => exact h
  | _ => trivial

/-- Such a run keeps the addresses in order. -/
lemma owning_along (hn : pl.NtopTotal) (hs : pl.LibraryWorks) (l : Library)
    (heap : Store AddressObject) (ops : List AddressOp)
    (hg : Guarded (AddressOp.step pl) (SetSource pl) ⟨l, heap, Store.empty⟩ ops) :
    Along (AddressOp.step pl) (Owning pl) ⟨l, heap, Store.empty⟩ ops := by
  apply along_of_guarded (G := SetSource pl)
  · intro s op s' h hop hstep
    exact Prog.resume_of_wp (exec_owning h op) hstep (keepsObject_of_setSource hn hs hop)
  · exact Owning.of_vars_empty l heap
  · exact hg

/-- In every state of such a run the two operators never throw and form a strict total
order with its equality, on blank, moved-from and set addresses of all domains. -/
theorem addresses_are_map_keys (hn : pl.NtopTotal) (hs : pl.LibraryWorks) (l : Library)
    (heap : Store AddressObject) (ops : List AddressOp)
    (hg : Guarded (AddressOp.step pl) (SetSource pl) ⟨l, heap, Store.empty⟩ ops) :
    Along (AddressOp.step pl) (Addresses.MapKeys pl) ⟨l, heap, Store.empty⟩ ops := by
  exact (owning_along hn hs l heap ops hg).mono fun s h => Addresses.mapKeys_of_owning h

/-- A pathname, a copy of it, a moved-from address, and a blank one assigned from the copy. -/
theorem addresses_are_map_keys_linux : Along (AddressOp.step linuxHost)
    (Addresses.MapKeys linuxHost) Addresses.initial
    [.ofString (bytes "/a") 1, .copy ⟨fun _ => 0, fun _ => 0⟩ 0, .move 0, .default,
      .copyAssign ⟨fun _ => 7, fun _ => 9⟩ 3 1] :=
  addresses_are_map_keys (ntopTotal_numericHost false false true)
    (libraryWorks_numericHost false false true) {} Store.empty _
    (.cons rfl trivial (.cons rfl trivial (.cons rfl trivial (.cons rfl trivial
      (.cons rfl ⟨.unix ⟨bytes "/a"⟩, rfl⟩ trivial)))))

end SockLib
