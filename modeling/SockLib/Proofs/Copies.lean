import SockLib.Model.NumericHost
import SockLib.Proofs.Names
import SockLib.Proofs.Operands

/-!
# Copies of addresses

A copy is decoded from the C structure of its original, so it has the name that the decoder
composes. The name that is kept from parsing is another one in general.
-/

namespace SockLib

variable (pl : Platform)

/-! ### Names that are kept -/

/-- The name that the C structure constructor of the class composes from the fields. -/
def AddressObject.decodedName : AddressObject → Except Int (List UInt8)
  | .ipv4 a => (pl.inet_ntop (pl.domainOf .IPv4) a.m_addr.toList).map fun r =>
      cStr r ++ bytes ":" ++ numeral 10 a.m_port.toNat
  | .ipv6 a => (pl.inet_ntop (pl.domainOf .IPv6)
      (wordBytes pl.bigEndian (swapEndian pl a.m_addr.toList))).map fun r =>
      bytes "[" ++ cStr r ++ bytes "]:" ++ numeral 10 a.m_port.toNat
  | .unix a => .ok a.name

/-- The name is the one that is composed from the fields. -/
def AddressObject.NameKept (o : AddressObject) : Prop := o.decodedName pl = .ok o.name

section Decoded

variable {pl} {o o' : AddressObject} {st : SockaddrStorage} {len : Nat}

lemma AddressObject.SameValue.decodedName_eq (h : o.SameValue o') :
    o.decodedName pl = o'.decodedName pl := by
  cases o with
  | ipv4 a =>
    cases o' with
    | ipv4 b =>
      obtain ⟨haddr, hport⟩ := h
      simp only [decodedName, haddr, hport]
    | ipv6 b => exact h.elim
    | unix b => exact h.elim
  | ipv6 a =>
    cases o' with
    | ipv4 b => exact h.elim
    | ipv6 b =>
      obtain ⟨haddr, hport, -⟩ := h
      simp only [decodedName, haddr, hport]
    | unix b => exact h.elim
  | unix a =>
    cases o' with
    | ipv4 b => exact h.elim
    | ipv6 b => exact h.elim
    | unix b =>
      have hab : a = b := congrArg UnixAddress.mk h
      rw [hab]

lemma IPv4Address.nameKept_of_ofSockaddrIn {m : SockaddrIn} {a : IPv4Address}
    (h : ofSockaddrIn pl m = .ok a) : (AddressObject.ipv4 a).NameKept pl := by
  rw [ofSockaddrIn] at h
  split at h
  · cases h
  · rename_i r hr
    cases h
    rw [AddressObject.NameKept, AddressObject.decodedName, hr]
    rfl

lemma IPv6Address.nameKept_of_ofSockaddrIn6 {m : SockaddrIn6} {a : IPv6Address}
    (h : ofSockaddrIn6 pl m = .ok a) : (AddressObject.ipv6 a).NameKept pl := by
  rw [ofSockaddrIn6] at h
  split at h
  · cases h
  · rename_i r hr
    cases h
    have hgroups : wordBytes pl.bigEndian
        (swapEndian pl (groupsOfBytes pl (m.array 8 16 (by decide))).toList) =
        (m.array 8 16 (by decide)).toList := by
      change wordBytes pl.bigEndian (swapEndian pl (swapEndian pl (words pl.bigEndian _))) = _
      rw [swapEndian_swapEndian, wordBytes_words _ 8 (List.Vector.toList_length _)]
    rw [AddressObject.NameKept, AddressObject.decodedName]
    simp only [hgroups, hr]
    rfl

/-- What is decoded has a name composed from its fields. -/
lemma nameKept_of_decode (h : decode pl st len = some (.ok o)) : o.NameKept pl := by
  unfold decode at h
  split at h
  · rename_i f hf
    cases f with
    | unix =>
      obtain ⟨a, -, ha⟩ := Option.map_eq_some_iff.mp h
      cases ha
      rfl
    | IPv4 =>
      obtain ⟨a, ha, rfl⟩ := exists_of_map_eq_ok (Option.some.inj h)
      exact IPv4Address.nameKept_of_ofSockaddrIn ha
    | IPv6 =>
      obtain ⟨a, ha, rfl⟩ := exists_of_map_eq_ok (Option.some.inj h)
      exact IPv6Address.nameKept_of_ofSockaddrIn6 ha
  · cases h

/-- What has been parsed has the parsed string for a name, unless it is a unix address. -/
lemma nameKept_of_ofString {f : Family} {addrstr : List UInt8}
    (h : AddressObject.ofString pl f addrstr = .ok o) :
    o.NameKept pl ↔ o.family = .unix ∨ o.decodedName pl = .ok addrstr := by
  cases f with
  | unix =>
    obtain ⟨a, -, rfl⟩ := exists_of_map_eq_ok h
    exact iff_of_true rfl (Or.inl rfl)
  | IPv4 =>
    obtain ⟨a, ha, rfl⟩ := exists_of_map_eq_ok h
    have hname : (AddressObject.ipv4 a).name = addrstr := IPv4Address.name_of_ofString ha
    rw [AddressObject.NameKept, hname]
    exact (or_iff_right fun hf => by cases hf).symm
  | IPv6 =>
    obtain ⟨a, ha, rfl⟩ := exists_of_map_eq_ok h
    have hname : (AddressObject.ipv6 a).name = addrstr := IPv6Address.name_of_ofString ha
    rw [AddressObject.NameKept, hname]
    exact (or_iff_right fun hf => by cases hf).symm

/-- Encoding and decoding give back the values, with the composed name. -/
lemma exists_decode_encoded (hn : pl.NtopTotal) {fr : Frame}
    (hst : o.toSockaddrStorage pl fr = some st) :
    ∃ o', decode pl st o.size = some (.ok o') ∧ o.SameValue o' ∧ (o' = o ↔ o.NameKept pl) := by
  obtain ⟨st', o', hst', hfam, ho', hv⟩ :=
    ofStorage_toSockaddrStorage hn (fits_of_toSockaddrStorage hst) fr
  obtain rfl := Option.some.inj (hst.symm.trans hst')
  have hdecode : decode pl st o.size = some (.ok o') := by
    rw [decode, hfam, Platform.familyOf_domainOf]
    exact ho'
  have hkept := nameKept_of_decode hdecode
  refine ⟨o', hdecode, hv, ?_⟩
  constructor
  · intro heq
    exact heq ▸ hkept
  · intro hown
    rw [AddressObject.NameKept, hv.decodedName_eq, hkept] at hown
    exact (AddressObject.eq_of_sameValue hv (Except.ok.inj hown).symm).symm

lemma AddressObject.Fits.size_le (h : o.Fits pl) : o.size ≤ 128 := by
  cases o with
  | ipv4 a => exact (by decide : 16 ≤ 128)
  | ipv6 a => exact (by decide : 28 ≤ 128)
  | unix a => exact (h a rfl).2

end Decoded

/-! ### Copies -/

namespace Addresses

/-- The address `x` in the state `t` answers as `y` does in the state `s`. -/
structure Mirrors (s : Addresses) (y : Nat) (t : Addresses) (x : Nat) : Prop where
  domain : ∃ d, addressDomain y s = .ok d s ∧ addressDomain x t = .ok d t
  size : ∃ n, size y s = .ok n s ∧ size x t = .ok n t
  encoding : ∀ fr fr', ∃ n st st', Addresses.size y s = .ok n s ∧
    toSockaddrStorage pl fr y s = .ok st s ∧ toSockaddrStorage pl fr' x t = .ok st' t ∧
    st.slice 0 n = st'.slice 0 n
  name : ∃ r, name y s = .ok r s ∧ name x t = .ok r t

/-- After an operation on the state `s`, the address `x` cannot be told from `y`, and `y` is what
it was. -/
structure Duplicates (s : Addresses) (y : Nat) (t : Addresses) (x : Nat) : Prop where
  copy : Mirrors pl s y t x
  original : Mirrors pl s y t y
  equals : Addresses.equals pl x y t = .ok true t ∧ Addresses.equals pl y x t = .ok true t

/-- Copy construction from `y`, copy assignment from `y` onto any address, and construction from
the object of `y` all make addresses that cannot be told from it. -/
structure CopiesAlike (s : Addresses) (y : Nat) (o : AddressObject) : Prop where
  copy : ∀ fr, ∃ x t, Addresses.copy pl fr y s = .ok x t ∧ Duplicates pl s y t x
  copyAssign : ∀ fr x, s.Live x →
    ∃ t, Addresses.copyAssign pl fr x y s = .ok () t ∧ Duplicates pl s y t x
  ofBase : ∀ fr, ∃ x t, Addresses.ofBase pl fr o s = .ok x t ∧ Duplicates pl s y t x

variable {pl} {s t : Addresses} {x y len : Nat} {o o' : AddressObject} {fr : Frame}
  {st : SockaddrStorage}

lemma Holds.addressDomain (h : s.Holds pl x o) :
    Addresses.addressDomain x s = .ok (pl.domainOf o.family) s := by
  obtain ⟨a, p, hx, hd, -⟩ := h
  rw [← hd]
  exact Prog.bind_of_ok (this_eq hx)

/-- Addresses that hold the same object answer alike. -/
lemma Holds.mirrors (hfit : o.Fits pl) (hy : s.Holds pl y o) (hx : t.Holds pl x o) :
    Mirrors pl s y t x where
  domain := ⟨_, hy.addressDomain, hx.addressDomain⟩
  size := ⟨_, hy.size, hx.size⟩
  name := ⟨_, hy.name, hx.name⟩
  encoding := by
    intro fr fr'
    obtain ⟨st, hst, henc⟩ := AddressObject.toSockaddrStorage_encoded hfit fr
    obtain ⟨st', hst', henc'⟩ := AddressObject.toSockaddrStorage_encoded hfit fr'
    have hagree := (henc.agree_iff henc').mpr (AddressObject.SameValue.refl o)
    exact ⟨o.size, st, st', hy.size, hy.toSockaddrStorage hst, hx.toSockaddrStorage hst', hagree.2⟩

lemma Holds.equals_true (hx : s.Holds pl x o) (hy : s.Holds pl y o) :
    Addresses.equals pl x y s = .ok true s := by
  obtain ⟨v, hv, hiff⟩ := hx.exists_equals hy
  rw [hv, hiff.mpr (Or.inl (AddressObject.SameValue.refl o))]

lemma Holds.duplicates (hfit : o.Fits pl) (hy : s.Holds pl y o) (hx : t.Holds pl x o)
    (hy' : t.Holds pl y o) : Duplicates pl s y t x :=
  ⟨hy.mirrors hfit hx, hy.mirrors hfit hy', hx.equals_true hy', hy'.equals_true hx⟩

/-- Copy construction is construction from the C structure of the original. -/
lemma copy_eq (hs : pl.LibraryWorks) (hy : s.Holds pl y o)
    (hst : o.toSockaddrStorage pl fr = some st) (hdec : decode pl st o.size = some (.ok o')) :
    copy pl fr y s = ofStorage pl st o.size s := by
  obtain ⟨a, p, ha, -, hp, ho⟩ := hy
  obtain ⟨-, hok⟩ := ofStorage_of_decode_ok (s := s) hs hdec
  rw [hok]
  apply Prog.eq_ok_of_wp
  rw [wp_copy_set pl ha hp ho]
  constructor
  · intro st' hst'
    obtain rfl := Option.some.inj (hst.symm.trans hst')
    exact Prog.wp_of_eq_ok hok ⟨rfl, rfl⟩
  · intro hnone
    rw [hst] at hnone
    cases hnone

lemma ofBase_eq (hst : o.toSockaddrStorage pl fr = some st) :
    ofBase pl fr o s = ofStorage pl st o.size s := by
  rw [ofBase, hst]
  rfl

/-- Assignment of a C structure that decodes. -/
lemma assign_of_decode (hs : pl.LibraryWorks) (h : Owning pl s) {a : Address}
    (hx : s.vars.get x = some a) (hlen : len ≤ 128) (hdec : decode pl st len = some (.ok o)) :
    assign pl x st len s = .ok ()
      { lib := (s.released a.base).lib.enter, heap := (s.released a.base).heap.push o,
        vars := s.vars.put x ⟨ssFamily pl st, some s.heap.next⟩ } := by
  apply Prog.eq_ok_of_wp
  unfold decode at hdec
  cases hf : pl.familyOf (ssFamily pl st) with
  | none =>
    rw [hf] at hdec
    cases hdec
  | some f =>
    rw [hf] at hdec
    change AddressObject.ofStorage pl f st len = some (.ok o) at hdec
    apply assign_spec pl hx
    · intro p hp
      obtain ⟨o', ho', -⟩ := h.target x a p hx hp
      exact ⟨o', ho'⟩
    · intro f' o' hf' ho' _
      obtain rfl := Option.some.inj (hf.symm.trans hf')
      obtain rfl := Except.ok.inj (Option.some.inj (hdec.symm.trans ho'))
      exact ⟨rfl, rfl⟩
    · intro hmakes _ _ _
      exact absurd ⟨f, o, hf, hdec, hs.not_startFails _⟩ hmakes
    · intro l hl
      exact hs.not_cleanupFails l hl
    · intro f' hnone
      exact absurd hnone (ofStorage_ne_none f' hlen)

lemma copyAssign_eq (hs : pl.LibraryWorks) (h : Owning pl s) {a : Address}
    (hx : s.vars.get x = some a) (hy : s.Holds pl y o)
    (hst : o.toSockaddrStorage pl fr = some st) (hdec : decode pl st o.size = some (.ok o')) :
    copyAssign pl fr x y s = .ok ()
      { lib := (s.released a.base).lib.enter, heap := (s.released a.base).heap.push o',
        vars := s.vars.put x ⟨ssFamily pl st, some s.heap.next⟩ } := by
  have hok := assign_of_decode hs h hx (fits_of_toSockaddrStorage hst).size_le hdec
  obtain ⟨b, q, hb, -, hq, ho⟩ := hy
  apply Prog.eq_ok_of_wp
  rw [wp_copyAssign_set pl hb hq ho]
  constructor
  · intro st' hst'
    obtain rfl := Option.some.inj (hst.symm.trans hst')
    exact Prog.wp_of_eq_ok hok ⟨rfl, rfl⟩
  · intro hnone
    rw [hst] at hnone
    cases hnone

/-- The object of the original is not touched by an assignment to another address. -/
lemma Holds.released_get (h : Owning pl s) (hy : s.Holds pl y o) {a : Address}
    (hx : s.vars.get x = some a) (hne : y ≠ x) :
    ∃ b q, s.vars.get y = some b ∧ b.m_domain = pl.domainOf o.family ∧ b.base = some q ∧
      (s.released a.base).heap.get q = some o := by
  obtain ⟨b, q, hb, hd, hq, ho⟩ := hy
  refine ⟨b, q, hb, hd, hq, ?_⟩
  cases hp : a.base with
  | none => exact ho
  | some p =>
    have hqp : q ≠ p := by
      rintro rfl
      exact hne (h.unshared y x b a q hb hx hq hp)
    change (s.heap.erase p).get q = some o
    rw [Store.get_erase, if_neg hqp, ho]

lemma copiesAlike_of_nameKept (hn : pl.NtopTotal) (hs : pl.LibraryWorks) (h : Owning pl s)
    (hy : s.Holds pl y o) (hfit : o.Fits pl) (hname : o.NameKept pl) : CopiesAlike pl s y o := by
  have hencode : ∀ fr, ∃ st, o.toSockaddrStorage pl fr = some st ∧
      decode pl st o.size = some (.ok o) ∧ ssFamily pl st = pl.domainOf o.family := by
    intro fr
    obtain ⟨st, hst, henc⟩ := AddressObject.toSockaddrStorage_encoded hfit fr
    obtain ⟨o', hdec, -, heq⟩ := exists_decode_encoded hn hst
    obtain rfl := heq.mpr hname
    exact ⟨st, hst, hdec, ssFamily_of_slice henc.family⟩
  have hmake : ∀ st, decode pl st o.size = some (.ok o) →
      ∃ x t, ofStorage pl st o.size s = .ok x t ∧ Duplicates pl s y t x := by
    intro st hdec
    obtain ⟨hfam, hok⟩ := ofStorage_of_decode_ok (s := s) hs hdec
    refine ⟨_, _, hok, Holds.duplicates hfit hy ?_ ?_⟩
    · exact ⟨_, _, Store.get_push_self _ _, hfam, rfl, Store.get_push_self _ _⟩
    · obtain ⟨b, q, hb, hd, hq, ho⟩ := hy
      exact ⟨b, q, Store.get_push_of_some hb _, hd, hq, Store.get_push_of_some ho _⟩
  constructor
  · intro fr
    obtain ⟨st, hst, hdec, -⟩ := hencode fr
    rw [copy_eq hs hy hst hdec]
    exact hmake st hdec
  · rintro fr x ⟨a, hx⟩
    obtain ⟨st, hst, hdec, hfam⟩ := hencode fr
    refine ⟨_, copyAssign_eq hs h hx hy hst hdec, ?_⟩
    have hput := Store.get_put hx ⟨ssFamily pl st, some s.heap.next⟩
    have hnew : ((s.released a.base).heap.push o).get s.heap.next = some o := by
      rw [← next_released s a.base]
      exact Store.get_push_self _ _
    have hx' : Holds pl { lib := (s.released a.base).lib.enter
                          heap := (s.released a.base).heap.push o
                          vars := s.vars.put x ⟨ssFamily pl st, some s.heap.next⟩ } x o :=
      ⟨_, _, (hput x).trans (if_pos rfl), hfam, rfl, hnew⟩
    refine Holds.duplicates hfit hy hx' ?_
    by_cases hne : y = x
    · rw [hne]
      exact hx'
    · obtain ⟨b, q, hb, hd, hq, ho⟩ := hy.released_get h hx hne
      exact ⟨b, q, (hput y).trans ((if_neg hne).trans hb), hd, hq, Store.get_push_of_some ho _⟩
  · intro fr
    obtain ⟨st, hst, hdec, -⟩ := hencode fr
    rw [ofBase_eq hst]
    exact hmake st hdec

lemma Holds.live (hy : s.Holds pl y o) : s.Live y := by
  obtain ⟨b, q, hb, -⟩ := hy
  exact ⟨b, hb⟩

/-- A copy can be made where the original fits, and it has the composed name. -/
lemma CopiesAlike.nameKept (hn : pl.NtopTotal) (hs : pl.LibraryWorks) (h : Owning pl s)
    (hy : s.Holds pl y o) (hc : CopiesAlike pl s y o) : o.Fits pl ∧ o.NameKept pl := by
  obtain ⟨x, t, hcopy, hdup⟩ := hc.copy ⟨fun _ => 0, fun _ => 0⟩
  obtain ⟨n, st, st', -, hcast, -⟩ :=
    hdup.copy.encoding ⟨fun _ => 0, fun _ => 0⟩ ⟨fun _ => 0, fun _ => 0⟩
  rcases toSockaddrStorage_cases h hy.live ⟨fun _ => 0, fun _ => 0⟩ with
    ⟨-, o₁, st₁, hy₁, hst⟩ | ⟨-, k, -, hfault⟩
  · obtain rfl := hy.unique hy₁
    obtain ⟨o', hdec, hv, heq⟩ := exists_decode_encoded hn hst
    obtain ⟨hfam, hok⟩ := ofStorage_of_decode_ok (s := s) hs hdec
    rw [copy_eq hs hy hst hdec, hok] at hcopy
    cases hcopy
    have hx : Holds pl { lib := s.lib.enter, heap := s.heap.push o'
                         vars := s.vars.push ⟨ssFamily pl st₁, some s.heap.next⟩ }
        s.vars.next o' :=
      ⟨_, _, Store.get_push_self _ _, hfam, rfl, Store.get_push_self _ _⟩
    obtain ⟨r, hr, hr'⟩ := hdup.copy.name
    rw [hy.name] at hr
    rw [hx.name] at hr'
    cases hr
    have hname : o'.name = o.name := by
      injection hr'
    exact ⟨fits_of_toSockaddrStorage hst, heq.mp (AddressObject.eq_of_sameValue hv hname.symm).symm⟩
  · rw [hfault] at hcast
    cases hcast

/-- An address is copied alike exactly when it fits its C structure and has the composed name. -/
lemma copiesAlike_iff (hn : pl.NtopTotal) (hs : pl.LibraryWorks) (h : Owning pl s)
    (hy : s.Holds pl y o) : CopiesAlike pl s y o ↔ o.Fits pl ∧ o.NameKept pl :=
  ⟨fun hc => hc.nameKept hn hs h hy, fun hc => copiesAlike_of_nameKept hn hs h hy hc.1 hc.2⟩

end Addresses

variable {pl}

/-- In every state of a run, the copies of an address cannot be told from it exactly when it fits
its C structure and has the name that decoding composes. What is decoded has that name, and so
has a parsed unix address; a parsed IP address has it exactly when the string was that name. -/
theorem copies_alike_iff (hn : pl.NtopTotal) (hs : pl.LibraryWorks) (l : Library)
    (heap : Store AddressObject) (ops : List AddressOp)
    (hg : Guarded (AddressOp.step pl) (SetSource pl) ⟨l, heap, Store.empty⟩ ops) :
    Along (AddressOp.step pl)
      (fun s => ∀ y o, s.Holds pl y o →
        (s.CopiesAlike pl y o ↔ o.Fits pl ∧ o.NameKept pl))
      ⟨l, heap, Store.empty⟩ ops ∧
    (∀ st len o, decode pl st len = some (.ok o) → o.NameKept pl) ∧
    ∀ f addrstr o, AddressObject.ofString pl f addrstr = .ok o →
      (o.NameKept pl ↔ o.family = .unix ∨ o.decodedName pl = .ok addrstr) := by
  refine ⟨?_, fun st len o h => nameKept_of_decode h, fun f addrstr o h => nameKept_of_ofString h⟩
  exact (owning_along hn hs l heap ops hg).mono fun s h y o hy =>
    Addresses.copiesAlike_iff hn hs h hy

/-- A pathname, and a copy of it. -/
theorem copies_alike_iff_linux : ∃ s,
    run (AddressOp.step linuxHost) Addresses.initial
      [.ofString (bytes "/a") 1, .copy ⟨fun _ => 0, fun _ => 0⟩ 0] = some s ∧
    s.CopiesAlike linuxHost 1 (.unix ⟨bytes "/a"⟩) := by
  have halong := (copies_alike_iff (ntopTotal_numericHost false false true)
    (libraryWorks_numericHost false false true) {} Store.empty
    [.ofString (bytes "/a") 1, .copy ⟨fun _ => 0, fun _ => 0⟩ 0]
    (.cons rfl trivial (.cons rfl trivial trivial))).1
  refine ⟨_, rfl, (halong.last rfl 1 _ ⟨_, _, rfl, rfl, rfl, rfl⟩).mpr ⟨?_, rfl⟩⟩
  exact UnixAddress.fits_of_length (by decide)

/-- A copy of an address parsed from a literal without a port has a port in its name. -/
theorem copies_not_alike : ¬∀ (ops : List AddressOp) (s : Addresses) (y : Nat) (o : AddressObject),
    run (AddressOp.step linuxHost) Addresses.initial ops = some s → s.Holds linuxHost y o →
    (∀ a, o = .unix a → a.m_addr.length ≤ 107) → s.CopiesAlike linuxHost y o := by
  intro h
  have hc := h [.ofString (bytes "1.2.3.4") 2] _ 0 _ rfl ⟨_, _, rfl, rfl, rfl, rfl⟩
    (fun a ha => by cases ha)
  have hown := (owning_along (ntopTotal_numericHost false false true)
    (libraryWorks_numericHost false false true) {} Store.empty
    [.ofString (bytes "1.2.3.4") 2] (.cons rfl trivial trivial)).last rfl
  have hname := (hc.nameKept (ntopTotal_numericHost false false true)
    (libraryWorks_numericHost false false true) hown ⟨_, _, rfl, rfl, rfl, rfl⟩).2
  cases hname

end SockLib
