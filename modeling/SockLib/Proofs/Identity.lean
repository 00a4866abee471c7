import SockLib.Foundation.Runs
import SockLib.Proofs.RoundTrip

/-!
# Equality and the bytes of the C address

Two addresses have the same C structure exactly when they agree in all that is encoded. The
operator `==` compares the same values, except that it leaves out the flow information and
the scope of IPv6 addresses.
-/

namespace SockLib

variable (pl : Platform)

/-! ### What the bytes say -/

section Bytes

variable {pl} {st st' : SockaddrStorage}

lemma intBytes_inj {big : Bool} {k v w : Nat} (hv : v < 256 ^ k) (hw : w < 256 ^ k)
    (h : intBytes big k v = intBytes big k w) : v = w := by
  rw [← intOfBytes_intBytes big hv, h, intOfBytes_intBytes big hw]

lemma portBytes_inj {p q : UInt16} (h : intBytes pl.bigEndian 2 (pl.htons p).toNat =
    intBytes pl.bigEndian 2 (pl.htons q).toNat) : p = q := by
  rw [← ofNat_portBytes pl p, h, ofNat_portBytes]

lemma u32Bytes_inj {v w : UInt32} (h : intBytes pl.bigEndian 4 v.toNat =
    intBytes pl.bigEndian 4 w.toNat) : v = w := by
  rw [← ofNat_u32Bytes pl v, h, ofNat_u32Bytes]

lemma groupBytes_inj {v w : List UInt16} (h : wordBytes pl.bigEndian (swapEndian pl v) =
    wordBytes pl.bigEndian (swapEndian pl w)) : v = w := by
  rw [← swapEndian_swapEndian pl v, ← words_wordBytes pl.bigEndian (swapEndian pl v), h,
    words_wordBytes, swapEndian_swapEndian]

lemma HoldsIPv4.agree_iff {a b : IPv4Address} (h : HoldsIPv4 pl a st) (h' : HoldsIPv4 pl b st') :
    st.slice 0 16 = st'.slice 0 16 ↔ a.m_addr = b.m_addr ∧ a.m_port = b.m_port := by
  constructor
  · intro hagree
    have haddr := Memory.slice_eq_of_agree hagree (show 4 + 4 ≤ 16 by decide)
    have hport := Memory.slice_eq_of_agree hagree (show 2 + 2 ≤ 16 by decide)
    rw [h.addr, h'.addr] at haddr
    rw [h.port, h'.port] at hport
    exact ⟨Subtype.ext haddr, portBytes_inj hport⟩
  · rintro ⟨haddr, hport⟩
    have hparts : ∀ m : SockaddrStorage, m.slice 0 16 =
        m.slice 0 2 ++ m.slice 2 2 ++ m.slice 4 4 ++ m.slice 8 8 := by
      intro m
      rw [m.slice_add 0 8 8, m.slice_add 0 4 4, m.slice_add 0 2 2]
    rw [hparts st, hparts st', h.family, h.port, h.addr, h.zero, h'.family, h'.port, h'.addr,
      h'.zero, haddr, hport]

lemma HoldsIPv6.agree_iff {a b : IPv6Address} (h : HoldsIPv6 pl a st) (h' : HoldsIPv6 pl b st') :
    st.slice 0 28 = st'.slice 0 28 ↔ a.m_addr = b.m_addr ∧ a.m_port = b.m_port ∧
      a.m_flowInfo = b.m_flowInfo ∧ a.m_scopeId = b.m_scopeId := by
  constructor
  · intro hagree
    have haddr := Memory.slice_eq_of_agree hagree (show 8 + 16 ≤ 28 by decide)
    have hport := Memory.slice_eq_of_agree hagree (show 2 + 2 ≤ 28 by decide)
    have hflow := Memory.slice_eq_of_agree hagree (show 4 + 4 ≤ 28 by decide)
    have hscope := Memory.slice_eq_of_agree hagree (show 24 + 4 ≤ 28 by decide)
    rw [h.addr, h'.addr] at haddr
    rw [h.port, h'.port] at hport
    rw [h.flowInfo, h'.flowInfo] at hflow
    rw [h.scopeId, h'.scopeId] at hscope
    exact ⟨Subtype.ext (groupBytes_inj haddr), portBytes_inj hport, u32Bytes_inj hflow,
      u32Bytes_inj hscope⟩
  · rintro ⟨haddr, hport, hflow, hscope⟩
    have hparts : ∀ m : SockaddrStorage, m.slice 0 28 =
        m.slice 0 2 ++ m.slice 2 2 ++ m.slice 4 4 ++ m.slice 8 16 ++ m.slice 24 4 := by
      intro m
      rw [m.slice_add 0 24 4, m.slice_add 0 8 16, m.slice_add 0 4 4, m.slice_add 0 2 2]
    rw [hparts st, hparts st', h.family, h.port, h.flowInfo, h.addr, h.scopeId, h'.family,
      h'.port, h'.flowInfo, h'.addr, h'.scopeId, haddr, hport, hflow, hscope]

/-- Whether the address is a pathname is seen from the size and the first byte of the path. -/
lemma HoldsUnix.named_iff {a : UnixAddress} (h : HoldsUnix pl a st) :
    a.named = true ↔ 2 < a.size ∧ st.slice 2 1 ≠ [0] := by
  cases ha : a.m_addr with
  | nil => simp [UnixAddress.named, UnixAddress.size, ha]
  | cons c cs =>
    have hge := a.size_ge
    rw [ha, List.length_cons] at hge
    rw [h.first ha (by decide)]
    simp only [UnixAddress.named, ha, List.length_cons, List.head?_cons]
    simp
    omega

lemma UnixAddress.size_of_not_named {a : UnixAddress} (h : a.named = false) :
    a.size = 2 + a.m_addr.length := by
  cases ha : a.m_addr with
  | nil => simp [UnixAddress.size, ha]
  | cons c cs =>
    have hc : c = 0 := by simpa [UnixAddress.named, ha] using h
    simp [UnixAddress.size, ha, hc]
    omega

/-- A pathname is one byte longer in the structure, so the size alone does not give the
length of the path. -/
lemma HoldsUnix.agree_iff {a b : UnixAddress} (h : HoldsUnix pl a st) (h' : HoldsUnix pl b st') :
    a.size = b.size ∧ st.slice 0 a.size = st'.slice 0 a.size ↔ a.m_addr = b.m_addr := by
  constructor
  · rintro ⟨hsize, hagree⟩
    have hge := a.size_ge
    have hnamed : a.named = b.named := by
      rw [Bool.eq_iff_iff, h.named_iff, h'.named_iff, ← hsize]
      apply and_congr_right
      intro h2
      rw [Memory.slice_eq_of_agree hagree (show 2 + 1 ≤ a.size by omega)]
    have hlen : a.m_addr.length = b.m_addr.length := by
      cases hn : a.named with
      | true =>
        have ha := UnixAddress.size_named hn
        have hb := UnixAddress.size_named (hnamed ▸ hn)
        omega
      | false =>
        have ha := UnixAddress.size_of_not_named hn
        have hb := UnixAddress.size_of_not_named (hnamed ▸ hn)
        omega
    have hpath := Memory.slice_eq_of_agree hagree (show 2 + a.m_addr.length ≤ a.size by omega)
    rw [h.path, hlen, h'.path] at hpath
    exact hpath
  · intro haddr
    have hab : a = b := by
      cases a
      cases b
      exact congrArg UnixAddress.mk haddr
    subst hab
    refine ⟨rfl, ?_⟩
    have hstart : st.slice 0 (2 + a.m_addr.length) = st'.slice 0 (2 + a.m_addr.length) := by
      rw [st.slice_add 0 2 _, st'.slice_add 0 2 _, h.family, h'.family, Nat.zero_add, h.path,
        h'.path]
    cases hn : a.named with
    | false => rw [UnixAddress.size_of_not_named hn, hstart]
    | true =>
      rw [UnixAddress.size_named hn, st.slice_add 0 _ 1, st'.slice_add 0 _ 1, hstart,
        Nat.zero_add, h.nul hn, h'.nul hn]

end Bytes

/-! ### Objects -/

namespace AddressObject

/-- The difference that `operator==` of IPv6 addresses does not see. -/
def DifferInScope : AddressObject → AddressObject → Prop
  | .ipv6 a, .ipv6 b => a.m_addr = b.m_addr ∧ a.m_port = b.m_port ∧
      ¬(a.m_flowInfo = b.m_flowInfo ∧ a.m_scopeId = b.m_scopeId)
  | _, _ => False

/-- The fields of an object, found in a C structure. -/
def EncodedIn (o : AddressObject) (st : SockaddrStorage) : Prop :=
  match o with
  | .ipv4 a => HoldsIPv4 pl a st
  | .ipv6 a => HoldsIPv6 pl a st
  | .unix a => HoldsUnix pl a st

variable {pl} {o o' : AddressObject} {st st' : SockaddrStorage}

lemma toSockaddrStorage_encoded (hfit : o.Fits pl) (fr : Frame) :
    ∃ st, o.toSockaddrStorage pl fr = some st ∧ o.EncodedIn pl st := by
  cases o with
  | ipv4 a => exact a.toSockaddrStorage_holds pl fr.struct fr.storage
  | ipv6 a => exact a.toSockaddrStorage_holds pl fr.struct fr.storage
  | unix a =>
    obtain ⟨hlen, hsize⟩ := hfit a rfl
    exact UnixAddress.toSockaddrStorage_holds pl hlen hsize fr.struct fr.storage

lemma EncodedIn.family (h : o.EncodedIn pl st) :
    st.slice 0 2 = intBytes pl.bigEndian 2 (pl.domainOf o.family) := by
  cases o with
  | ipv4 a => exact HoldsIPv4.family h
  | ipv6 a => exact HoldsIPv6.family h
  | unix a => exact HoldsUnix.family h

lemma two_le_size (o : AddressObject) : 2 ≤ o.size := by
  cases o with
  | ipv4 a => exact (by decide : 2 ≤ 16)
  | ipv6 a => exact (by decide : 2 ≤ 28)
  | unix a =>
    have hge := a.size_ge
    exact (Nat.le_add_right 2 _).trans hge

/-- The C structures agree exactly when all that is encoded does. -/
theorem EncodedIn.agree_iff (h : o.EncodedIn pl st) (h' : o'.EncodedIn pl st') :
    o.size = o'.size ∧ st.slice 0 o.size = st'.slice 0 o.size ↔ o.SameValue o' := by
  by_cases hfam : o.family = o'.family
  · cases o with
    | ipv4 a =>
      cases o' with
      | ipv4 b => exact (and_iff_right rfl).trans (HoldsIPv4.agree_iff h h')
      | ipv6 b => cases hfam
      | unix b => cases hfam
    | ipv6 a =>
      cases o' with
      | ipv4 b => cases hfam
      | ipv6 b => exact (and_iff_right rfl).trans (HoldsIPv6.agree_iff h h')
      | unix b => cases hfam
    | unix a =>
      cases o' with
      | ipv4 b => cases hfam
      | ipv6 b => cases hfam
      | unix b => exact HoldsUnix.agree_iff h h'
  · apply iff_of_false
    · rintro ⟨-, hagree⟩
      have hbytes := Memory.slice_eq_of_agree hagree (show 0 + 2 ≤ o.size from o.two_le_size)
      rw [h.family, h'.family] at hbytes
      exact hfam (pl.domainOf_inj (intBytes_inj (pl.domainOf_lt _) (pl.domainOf_lt _) hbytes))
    · intro hsame
      exact hfam hsame.family_eq

/-- What `operator==` compares. -/
lemma exists_equals (h : o.family = o'.family) :
    ∃ v, equals o.family o o' = some v ∧ (v = true ↔ o.SameValue o' ∨ o.DifferInScope o') := by
  cases o with
  | ipv4 a =>
    cases o' with
    | ipv4 b =>
      refine ⟨_, rfl, ?_⟩
      simp [IPv4Address.equals, SameValue, DifferInScope]
    | ipv6 b => cases h
    | unix b => cases h
  | ipv6 a =>
    cases o' with
    | ipv4 b => cases h
    | ipv6 b =>
      refine ⟨_, rfl, ?_⟩
      simp only [IPv6Address.equals, SameValue, DifferInScope, Bool.and_eq_true, decide_eq_true_eq]
      tauto
    | unix b => cases h
  | unix a =>
    cases o' with
    | ipv4 b => cases h
    | ipv6 b => cases h
    | unix b =>
      refine ⟨_, rfl, ?_⟩
      simp [UnixAddress.equals, SameValue, DifferInScope]

lemma DifferInScope.not_sameValue (h : o.DifferInScope o') : ¬o.SameValue o' := by
  intro hsame
  cases o with
  | ipv4 a => exact h
  | ipv6 a =>
    cases o' with
    | ipv4 b => exact h
    | ipv6 b => exact h.2.2 hsame.2.2
    | unix b => exact h
  | unix a => exact h

lemma DifferInScope.family_eq (h : o.DifferInScope o') : o.family = o'.family := by
  cases o with
  | ipv4 a => exact h.elim
  | ipv6 a =>
    cases o' with
    | ipv4 b => exact h.elim
    | ipv6 b => rfl
    | unix b => exact h.elim
  | unix a => exact h.elim

end AddressObject

/-! ### Addresses -/

namespace Addresses

/-- `x` is an address that holds the object `o`, with the domain of its class. -/
def Holds (s : Addresses) (x : Nat) (o : AddressObject) : Prop :=
  ∃ a p, s.vars.get x = some a ∧ a.m_domain = pl.domainOf o.family ∧ a.base = some p ∧
    s.heap.get p = some o

/-- `==` says of two addresses whether their C structures are the same. -/
def ComparesBytes (s : Addresses) (fr fr' : Frame) (x y : Nat) : Prop :=
  ∃ v n m st st', equals pl x y s = .ok v s ∧ size x s = .ok n s ∧ size y s = .ok m s ∧
    toSockaddrStorage pl fr x s = .ok st s ∧ toSockaddrStorage pl fr' y s = .ok st' s ∧
    (v = true ↔ n = m ∧ st.slice 0 n = st'.slice 0 n)

variable {pl} {s : Addresses} {x y : Nat} {o o' : AddressObject}

lemma Holds.size (h : s.Holds pl x o) : Addresses.size x s = .ok o.size s := by
  obtain ⟨a, p, hx, -, hp, ho⟩ := h
  apply Prog.eq_ok_of_wp
  rw [wp_size_some hx hp ho]
  exact ⟨rfl, rfl⟩

lemma Holds.toSockaddrStorage (h : s.Holds pl x o) {fr : Frame} {st : SockaddrStorage}
    (hst : o.toSockaddrStorage pl fr = some st) :
    Addresses.toSockaddrStorage pl fr x s = .ok st s := by
  obtain ⟨a, p, hx, -, hp, ho⟩ := h
  apply Prog.eq_ok_of_wp
  rw [wp_toSockaddrStorage pl hx hp ho, hst]
  constructor
  · intro st' hst'
    exact ⟨(Option.some.inj hst').symm, rfl⟩
  · intro hnone
    cases hnone

lemma Holds.exists_equals (h : s.Holds pl x o) (h' : s.Holds pl y o') :
    ∃ v, equals pl x y s = .ok v s ∧ (v = true ↔ o.SameValue o' ∨ o.DifferInScope o') := by
  obtain ⟨a, p, hx, hdx, hp, ho⟩ := h
  obtain ⟨b, q, hy, hdy, hq, ho'⟩ := h'
  by_cases hfam : o.family = o'.family
  · obtain ⟨v, hv, hiff⟩ := AddressObject.exists_equals hfam
    refine ⟨v, ?_, hiff⟩
    apply Prog.eq_ok_of_wp
    rw [wp_equals_set pl hx hy (hdx.trans (hfam ▸ hdy.symm)) (f := o.family)
      (by rw [hdx, Platform.familyOf_domainOf]) hp hq ho ho' hv]
    exact ⟨rfl, rfl⟩
  · have hd : a.m_domain ≠ b.m_domain := by
      intro hab
      rw [hdx, hdy] at hab
      exact hfam (pl.domainOf_inj hab)
    refine ⟨false, ?_, ?_⟩
    · apply Prog.eq_ok_of_wp
      simp [equals, wp_this hx, wp_this hy, hd]
    · simp only [Bool.false_eq_true, false_iff, not_or]
      exact ⟨fun hs => hfam hs.family_eq, fun hs => hfam hs.family_eq⟩

/-- Equality is identity of the C address exactly when the two are not IPv6 addresses that
differ in nothing but the flow information or the scope. -/
theorem equality_is_identity_iff (s : Addresses) (fr fr' : Frame) (x y : Nat)
    (o o' : AddressObject) (hx : s.Holds pl x o) (hy : s.Holds pl y o')
    (hlen : ∀ a, o = .unix a → a.m_addr.length ≤ 107)
    (hlen' : ∀ a, o' = .unix a → a.m_addr.length ≤ 107) :
    s.ComparesBytes pl fr fr' x y ↔ ¬o.DifferInScope o' := by
  have hfit : ∀ o : AddressObject, (∀ a, o = .unix a → a.m_addr.length ≤ 107) → o.Fits pl := by
    intro o ho a ha
    exact UnixAddress.fits_of_length (ho a ha) a rfl
  obtain ⟨st, hst, henc⟩ := AddressObject.toSockaddrStorage_encoded (hfit o hlen) fr
  obtain ⟨st', hst', henc'⟩ := AddressObject.toSockaddrStorage_encoded (hfit o' hlen') fr'
  obtain ⟨v, hv, hiff⟩ := hx.exists_equals hy
  have hbytes := henc.agree_iff henc'
  have hcompares : s.ComparesBytes pl fr fr' x y ↔
      (v = true ↔ o.size = o'.size ∧ st.slice 0 o.size = st'.slice 0 o.size) := by
    constructor
    · rintro ⟨w, n, m, t, t', hw, hn, hm, ht, ht', hres⟩
      rw [hv] at hw
      rw [hx.size] at hn
      rw [hy.size] at hm
      rw [hx.toSockaddrStorage hst] at ht
      rw [hy.toSockaddrStorage hst'] at ht'
      cases hw
      cases hn
      cases hm
      cases ht
      cases ht'
      exact hres
    · intro hres
      exact ⟨v, _, _, st, st', hv, hx.size, hy.size, hx.toSockaddrStorage hst,
        hy.toSockaddrStorage hst', hres⟩
  rw [hcompares, hiff, hbytes]
  constructor
  · intro hsame hdiffer
    exact hdiffer.not_sameValue (hsame.mp (Or.inr hdiffer))
  · intro hno
    exact or_iff_left hno

/-- The address `fe80::1` with port 80 on an interface. -/
def linkLocal (scope : UInt32) : IPv6Address :=
  ⟨⟨[0xfe80, 0, 0, 0, 0, 0, 0, 1], rfl⟩, 80, 0, scope, []⟩

/-- Two addresses on the same interface, each made from an object. -/
theorem equality_is_identity_iff_linux : ∃ s,
    run (AddressOp.step linuxHost) initial [.ofBase ⟨fun _ => 0, fun _ => 0⟩ (.ipv6 (linkLocal 1)),
      .ofBase ⟨fun _ => 0, fun _ => 0⟩ (.ipv6 (linkLocal 1))] = some s ∧
    s.ComparesBytes linuxHost ⟨fun _ => 7, fun _ => 7⟩ ⟨fun _ => 9, fun _ => 9⟩ 0 1 := by
  refine ⟨_, rfl, ?_⟩
  refine (equality_is_identity_iff _ _ _ 0 1 _ _ ⟨_, _, rfl, rfl, rfl, rfl⟩
    ⟨_, _, rfl, rfl, rfl, rfl⟩ ?_ ?_).mpr ?_
  · intro a ha
    cases ha
  · intro a ha
    cases ha
  · intro h
    exact h.2.2 ⟨rfl, rfl⟩

/-- Peers on two interfaces are equal, and their C structures are not. -/
theorem equality_is_not_identity : ¬∀ (ops : List AddressOp) (s : Addresses) (fr fr' : Frame)
    (x y : Nat) (o o' : AddressObject), run (AddressOp.step linuxHost) initial ops = some s →
    s.Holds linuxHost x o → s.Holds linuxHost y o' →
    (∀ a, o = .unix a → a.m_addr.length ≤ 107) → (∀ a, o' = .unix a → a.m_addr.length ≤ 107) →
    s.ComparesBytes linuxHost fr fr' x y := by
  intro h
  obtain ⟨v, n, m, st, st', hv, hn, -, hst, hst', hiff⟩ := h
    [.ofBase ⟨fun _ => 0, fun _ => 0⟩ (.ipv6 (linkLocal 1)),
      .ofBase ⟨fun _ => 0, fun _ => 0⟩ (.ipv6 (linkLocal 2))] _ ⟨fun _ => 0, fun _ => 0⟩
    ⟨fun _ => 0, fun _ => 0⟩ 0 1 _ _ rfl ⟨_, _, rfl, rfl, rfl, rfl⟩ ⟨_, _, rfl, rfl, rfl, rfl⟩
    (fun a ha => by cases ha) (fun a ha => by cases ha)
  cases hv
  cases hn
  cases hst
  cases hst'
  exact absurd (hiff.mp rfl).2 (by decide)

end Addresses

end SockLib
