import SockLib.Proofs.Ordering
import SockLib.Proofs.Splitting

/-!
# Names of addresses

`name()` is meant to be usable to construct an identical address. For the IP classes the
printed literal and port are found again by the string constructors. A unix address is
constructed again exactly when it is a pathname.
-/

namespace SockLib

variable (pl : Platform)

/-! ### Unix addresses -/

/-- The unix addresses that the string constructor and the C structure constructor make. -/
inductive UnixAddress.Obtainable : UnixAddress → Prop where
  | ofString (addrstr : List UInt8) (a : UnixAddress) (h : ofString pl addrstr = .ok a) :
      Obtainable a
  | ofSockaddrUn (addr : Memory pl.sockaddrUnSize) (len : Nat) (a : UnixAddress) (hmin : 2 ≤ len)
      (hmax : len ≤ pl.sockaddrUnSize) (h : ofSockaddrUn addr len = some a) : Obtainable a

namespace UnixAddress

/-- `unixAddress(a.name())` succeeds and is equal to `a`. -/
def NameReconstructs (a : UnixAddress) : Prop :=
  ∃ b, ofString pl a.name = .ok b ∧ b.equals a = true

variable {pl}

lemma ofString_eq_ok {addrstr : List UInt8} {a : UnixAddress} :
    ofString pl addrstr = .ok a ↔ addrstr.length < pl.sunPathSize ∧ a = ⟨addrstr⟩ := by
  unfold ofString
  split
  · constructor
    · intro h
      cases h
    · rintro ⟨hlt, -⟩
      omega
  · constructor
    · intro h
      cases h
      exact ⟨by omega, rfl⟩
    · rintro ⟨-, rfl⟩
      rfl

/-- A pathname leaves room for the terminator, wherever it comes from. -/
lemma Obtainable.length_lt {a : UnixAddress} (h : Obtainable pl a) (hn : a.named = true) :
    a.m_addr.length < pl.sunPathSize := by
  cases h with
  | ofString addrstr a h =>
    obtain ⟨hlt, rfl⟩ := ofString_eq_ok.mp h
    exact hlt
  | ofSockaddrUn addr len a hmin hmax h =>
    have hsize : pl.sockaddrUnSize = 2 + pl.sunPathSize := rfl
    have hsun := sunPathSize_ge pl
    by_cases h2 : len ≤ 2
    · rw [ofSockaddrUn_unnamed h2] at h
      cases h
      cases hn
    · by_cases hpath : 3 < len ∧ addr.slice 2 1 ≠ [0]
      · rw [ofSockaddrUn_pathname hpath.1 hpath.2 (by omega)] at h
        cases h
        have hlen := addr.length_slice (show 2 + (len - 3) ≤ pl.sockaddrUnSize by omega)
        simp only [hlen]
        omega
      · have hfirst : 3 < len → addr.slice 2 1 = [0] := fun h3 => by
          by_contra hne
          exact hpath ⟨h3, hne⟩
        rw [ofSockaddrUn_abstract (by omega) hfirst (by omega)] at h
        cases h
        have hlen := addr.length_slice (show 2 + (len - 2) ≤ pl.sockaddrUnSize by omega)
        by_cases h3 : 3 < len
        · obtain ⟨k, hk⟩ : ∃ k, len - 2 = 1 + k := ⟨len - 3, by omega⟩
          rw [hk, Memory.slice_add, hfirst h3] at hn
          cases hn
        · simp only [hlen]
          omega

lemma name_of_named {a : UnixAddress} (h : a.named = true) : a.name = a.m_addr := by
  rw [name, if_pos h]

lemma named_of_head {a : UnixAddress} {c : UInt8} (h : a.m_addr.head? = some c) (hc : c ≠ 0) :
    a.named = true := by
  have hpos : 0 < a.m_addr.length := List.length_pos_of_ne_nil (by
    rintro hnil
    rw [hnil] at h
    cases h)
  simp [named, h, hc, hpos]

/-- The name of an address that is no pathname reads as one. -/
lemma head_name_of_not_named {a : UnixAddress} (h : a.named = false) :
    a.name.head? = some 117 ∨ a.name.head? = some 97 := by
  rw [name, if_neg (by simp [h])]
  split
  · exact Or.inl rfl
  · exact Or.inr rfl

lemma nameReconstructs_iff {a : UnixAddress} (h : Obtainable pl a) :
    NameReconstructs pl a ↔ a.named = true := by
  constructor
  · rintro ⟨b, hb, heq⟩
    obtain ⟨-, rfl⟩ := ofString_eq_ok.mp hb
    have haddr : a.name = a.m_addr := by simpa [equals] using heq
    by_contra hn
    rcases head_name_of_not_named (Bool.eq_false_iff.mpr hn) with hh | hh
    · exact hn (named_of_head (haddr ▸ hh) (by decide))
    · exact hn (named_of_head (haddr ▸ hh) (by decide))
  · intro hn
    refine ⟨⟨a.name⟩, ofString_eq_ok.mpr ⟨?_, rfl⟩, ?_⟩
    · rw [name_of_named hn]
      exact h.length_lt hn
    · simp [equals, name_of_named hn]

end UnixAddress

/-- A unix address is constructed again from its name exactly when it is a pathname, and
pathnames with the same name are equal. -/
theorem unix_name_reconstructs_iff :
    (∀ a, UnixAddress.Obtainable pl a → (UnixAddress.NameReconstructs pl a ↔ a.named = true)) ∧
    ∀ a b : UnixAddress, a.named = true → b.named = true → a.name = b.name →
      a.equals b = true := by
  refine ⟨fun a h => UnixAddress.nameReconstructs_iff h, fun a b ha hb hab => ?_⟩
  rw [UnixAddress.name_of_named ha, UnixAddress.name_of_named hb] at hab
  simp [UnixAddress.equals, hab]

/-- The unnamed address, and two different abstract ones with the same name. -/
theorem unix_name_does_not_reconstruct :
    (¬∀ a, UnixAddress.Obtainable linuxHost a → UnixAddress.NameReconstructs linuxHost a) ∧
    ¬∀ a b, UnixAddress.Obtainable linuxHost a → UnixAddress.Obtainable linuxHost b →
      a.name = b.name → a.equals b = true := by
  constructor
  · intro h
    obtain ⟨b, hb, heq⟩ := h ⟨[]⟩ (.ofString [] _ rfl)
    obtain ⟨-, rfl⟩ := UnixAddress.ofString_eq_ok.mp hb
    cases heq
  · intro h
    have heq := h ⟨[0, 97]⟩ ⟨[0, 98]⟩ (.ofString [0, 97] _ rfl) (.ofString [0, 98] _ rfl) rfl
    cases heq

/-! ### IP addresses -/

/-- What is relied on about literals: `inet_ntop` prints one without the characters that the
constructors split at, `getaddrinfo` of the same family maps it back to the same bytes with
port 0 when no service is given, and `getaddrinfo` for IPv6 rejects an IPv4 literal with a port. -/
structure Platform.NumericNames : Prop where
  v4 : ∀ bs : Memory 4, ∃ r st, pl.inet_ntop (pl.domainOf .IPv4) bs.toList = .ok r ∧
    (∀ c ∈ bytes ":[]/", c ∉ cStr r) ∧
    pl.getaddrinfo (cStr r) none (pl.domainOf .IPv4) = .ok st ∧
    st.slice 4 4 = bs.toList ∧ st.slice 2 2 = [0, 0]
  v6 : ∀ bs : Memory 16, ∃ r st, pl.inet_ntop (pl.domainOf .IPv6) bs.toList = .ok r ∧
    (∀ c ∈ bytes "[]/", c ∉ cStr r) ∧
    pl.getaddrinfo (cStr r) none (pl.domainOf .IPv6) = .ok st ∧
    st.slice 8 16 = bs.toList ∧ st.slice 2 2 = [0, 0]
  notV6 : ∀ (bs : Memory 4) r (port : UInt16),
    pl.inet_ntop (pl.domainOf .IPv4) bs.toList = .ok r →
    ∃ e, pl.getaddrinfo (cStr r ++ bytes ":" ++ numeral 10 port.toNat) none
      (pl.domainOf .IPv6) = .error e

variable {pl}

lemma Platform.NumericNames.ntopTotal (h : pl.NumericNames) : pl.NtopTotal where
  v4 bs := by
    obtain ⟨r, -, hr, -⟩ := h.v4 bs
    exact ⟨r, hr⟩
  v6 bs := by
    obtain ⟨r, -, hr, -⟩ := h.v6 bs
    exact ⟨r, hr⟩

/-- Without a service the port read is the one given, also when it is zero. -/
lemma given_port {st : SockaddrStorage} (hport : st.slice 2 2 = [0, 0]) (port : UInt16) :
    (if port = 0 then pl.ntohs (UInt16.ofNat (intOfBytes pl.bigEndian (st.slice 2 2)))
    else port) = port := by
  have hsin : pl.ntohs (UInt16.ofNat (intOfBytes pl.bigEndian [0, 0])) = 0 := by
    unfold Platform.ntohs
    cases pl.bigEndian <;> decide
  rw [hport, hsin]
  split
  · exact (‹port = 0›).symm
  · rfl

/-- A printed port is read back. -/
lemma readPort_numeral {t : AddressText} {port : UInt16}
    (h : t.port = some (numeral 10 port.toNat)) : t.readPort pl = .ok port := by
  have hlt := port.toNat_lt
  have hmax := ulongMax_ge pl
  rw [AddressText.readPort_of_port h, stoul_digits (Digits.numeral _), decimal_numeral,
    if_neg (by omega)]
  simp [Except.map]

/-- A literal without a colon, a colon and a port are taken apart again. -/
lemma IPv4Address.splitAddress_literal {lit : List UInt8} (port : UInt16)
    (hlit : ∀ c ∈ bytes ":[]/", c ∉ lit) :
    splitAddress pl (lit ++ bytes ":" ++ numeral 10 port.toNat) = .ok (lit, [], port) := by
  let t : AddressText := ⟨none, lit, some (numeral 10 port.toNat)⟩
  have hu : t.IsUrl := by
    refine ⟨?_, ⟨hlit 58 (by decide), hlit 47 (by decide)⟩, ?_⟩
    · intro s hs
      cases hs
    · intro ds hds
      cases hds
      exact Digits.numeral _
  have hsplit := splitAddress_url pl hu
  rw [readPort_numeral rfl] at hsplit
  rw [List.append_assoc]
  exact hsplit

/-- A bracketed literal without brackets of its own, a colon and a port. -/
lemma IPv6Address.splitAddress_literal {lit : List UInt8} (port : UInt16)
    (hlit : ∀ c ∈ bytes "[]/", c ∉ lit) :
    splitAddress pl (bytes "[" ++ lit ++ bytes "]:" ++ numeral 10 port.toNat) =
      .ok (lit, [], port) := by
  let t : AddressText := ⟨none, lit, some (numeral 10 port.toNat)⟩
  have hhead : lit.head? ≠ some 91 := fun h => hlit 91 (by decide) (List.mem_of_head? h)
  have hinfix : ¬bytes "://" <:+: lit := fun h => hlit 47 (by decide) (h.subset (by decide))
  have hliteral : t.IsLiteral := by
    refine ⟨rfl, ⟨hlit 93 (by decide), hinfix, hhead⟩, ?_⟩
    intro ds hds
    cases hds
    exact Digits.numeral _
  have hsplit := splitAddress_bracketed pl hliteral rfl
  rw [readPort_numeral rfl] at hsplit
  exact hsplit

namespace AddressObject

variable (pl) in
/-- The string constructor of the class, applied to the name, gives an equal object. -/
def NameReconstructs (o : AddressObject) : Prop :=
  ∃ o', ofString pl o.family o.name = .ok o' ∧ equals o.family o' o = some true

end AddressObject

lemma IPv4Address.name_reconstructs (h : pl.NumericNames) {m : SockaddrIn} {a : IPv4Address}
    (ha : ofSockaddrIn pl m = .ok a) : ∃ b, ofString pl a.name = .ok b ∧ b.equals a = true := by
  obtain ⟨r, st, hr, hlit, hst, haddr, hport⟩ := h.v4 (m.array 4 4 (by decide))
  rw [ofSockaddrIn, hr] at ha
  cases ha
  have hm : st.array 4 4 (by decide) = m.array 4 4 (by decide) := Subtype.ext haddr
  rw [ofString, name, splitAddress_literal _ hlit, ok_bind]
  simp only [ne_eq, not_true_eq_false, if_false, cStr_of_notMem (zero_notMem_cStr r), hst,
    given_port hport, hm]
  exact ⟨_, rfl, by simp [equals]⟩

lemma IPv6Address.name_reconstructs (h : pl.NumericNames) {m : SockaddrIn6} {a : IPv6Address}
    (ha : ofSockaddrIn6 pl m = .ok a) : ∃ b, ofString pl a.name = .ok b ∧ b.equals a = true := by
  obtain ⟨r, st, hr, hlit, hst, haddr, hport⟩ := h.v6 (m.array 8 16 (by decide))
  rw [ofSockaddrIn6, hr] at ha
  cases ha
  have hm : st.array 8 16 (by decide) = m.array 8 16 (by decide) := Subtype.ext haddr
  rw [ofString, name, splitAddress_literal _ hlit, ok_bind]
  simp only [ne_eq, not_true_eq_false, if_false, cStr_of_notMem (zero_notMem_cStr r), hst,
    given_port hport, hm]
  exact ⟨_, rfl, by simp [equals]⟩

/-- The name of an address built from a string is that string. -/
lemma IPv4Address.name_of_ofString {addrstr : List UInt8} {a : IPv4Address}
    (h : ofString pl addrstr = .ok a) : a.name = addrstr := by
  obtain ⟨⟨as, scheme, port⟩, -, h⟩ := exists_of_bind_eq_ok h
  simp only at h
  split at h
  · cases h
  · cases h
    rfl

lemma IPv6Address.name_of_ofString {addrstr : List UInt8} {a : IPv6Address}
    (h : ofString pl addrstr = .ok a) : a.name = addrstr := by
  obtain ⟨⟨as, scheme, port⟩, -, h⟩ := exists_of_bind_eq_ok h
  simp only at h
  split at h
  · cases h
  · cases h
    rfl

/-- The IPv6 class does not take the name of an IPv4 address for one of its own. -/
lemma IPv6Address.ofString_rejects (h : pl.NumericNames) {m : SockaddrIn} {a : IPv4Address}
    (ha : IPv4Address.ofSockaddrIn pl m = .ok a) : ∃ e, ofString pl a.name = .error e := by
  obtain ⟨r, -, hr, hlit, -⟩ := h.v4 (m.array 4 4 (by decide))
  rw [IPv4Address.ofSockaddrIn, hr] at ha
  cases ha
  obtain ⟨e, he⟩ := h.notV6 _ _ (pl.ntohs (UInt16.ofNat
    (intOfBytes pl.bigEndian (m.slice 2 2)))) hr
  have hmem : ∀ c, c ∉ cStr r → c ∉ bytes ":" → isDigit 10 c = false → ∀ port : UInt16,
      c ∉ cStr r ++ bytes ":" ++ numeral 10 port.toNat := by
    intro c hr hc hd port hin
    rw [List.mem_append, List.mem_append] at hin
    exact hin.elim (fun hin => hin.elim hr hc) (notMem_numeral (by decide) (by decide) hd _)
  have hslash := hmem 47 (hlit 47 (by decide)) (by decide) (by decide)
  have hopen := hmem 91 (hlit 91 (by decide)) (by decide) (by decide)
  have hnul := hmem 0 (zero_notMem_cStr r) (by decide) (by decide)
  rw [ofString, IPv4Address.name, splitAddress, find_eq_none (c := 47) (by decide) (hslash _),
    find_eq_none (c := 91) (by decide) (hopen _)]
  simp only [pure_bind, ne_eq, not_true_eq_false, if_false, cStr_of_notMem (hnul _), he]
  exact ⟨_, rfl⟩

namespace Addresses

variable {E : Exn → Addresses → Prop} {F : Fault → Prop} {s : Addresses}

lemma adopt_setDomain_ok (hs : pl.LibraryWorks) {Q : Unit → Addresses → Prop} {x : Nat}
    {a : Address} {f : Family} {addrstr : List UInt8} {o : AddressObject}
    (hx : s.vars.get x = some a) (ho : AddressObject.ofString pl f addrstr = .ok o)
    (hQ : Q () { lib := s.lib.enter.enter.leave
                 heap := ((s.heap.push o).push o).erase s.heap.next
                 vars := s.vars.put x ⟨pl.domainOf f, some (s.heap.next + 1)⟩ }) :
    Prog.wp (adopt pl x f addrstr (setDomain x (pl.domainOf f))) Q E F s := by
  refine adopt_spec pl hx (fun t b R E' ht _ hR => (wp_setDomain ht).mpr hR) (fun o' ho' _ => ?_)
    (fun hno => ?_) (fun l hc => absurd hc (hs.not_cleanupFails l))
  · obtain rfl : o = o' := Except.ok.inj (ho.symm.trans ho')
    exact hQ
  · rcases hno with hstart | ⟨e, he⟩
    · exact absurd hstart (hs.not_startFails _)
    · rw [ho] at he
      cases he

/-- Without a domain the string is tried as an IPv6 address and then as an IPv4 one. -/
lemma ofString_guess (hs : pl.LibraryWorks) {Q : Nat → Addresses → Prop} {addrstr : List UInt8}
    {o : AddressObject}
    (ho : AddressObject.ofString pl .IPv6 addrstr = .ok o ∨
      (∃ e, AddressObject.ofString pl .IPv6 addrstr = .error e) ∧
        AddressObject.ofString pl .IPv4 addrstr = .ok o)
    (hQ : ∀ l, Q s.vars.next { lib := l
                               heap := ((s.heap.push o).push o).erase s.heap.next
                               vars := s.vars.push
                                 ⟨pl.domainOf o.family, some (s.heap.next + 1)⟩ }) :
    Prog.wp (ofString pl addrstr 0) Q E F s := by
  have hf : pl.familyOf 0 = none := by
    have h6 := pl.AF_INET6_cases
    simp only [Platform.familyOf]
    rw [if_neg (by decide), if_neg (by omega), if_neg (by decide)]
  rw [ofString, wp_construct, Prog.wp_bind, wp_setDomain (s.vars.get_push_self _), hf]
  simp only [Store.push_put_next]
  rw [Prog.wp_tryCatch]
  rcases ho with ho | ⟨⟨e, he⟩, ho⟩
  · refine adopt_setDomain_ok hs (s.vars.get_push_self _) ho ?_
    simp only [Store.push_put_next]
    exact ofString_family ho ▸ hQ _
  · refine adopt_spec pl (s.vars.get_push_self _) (fun t b R E' ht _ hR => (wp_setDomain ht).mpr hR)
      (fun o' ho' _ => ?_) (fun _ e l _ => ?_) (fun l hc => absurd hc (hs.not_cleanupFails l))
    · rw [he] at ho'
      cases ho'
    · rw [Prog.wp_tryCatch]
      refine adopt_setDomain_ok hs (s.vars.get_push_self _) ho ?_
      simp only [Store.push_put_next]
      exact ofString_family ho ▸ hQ _

variable (pl) in
/-- Construct a domain-less address from the name of an object, and compare it with the
address of the object itself. -/
def rename (fr : Frame) (o : AddressObject) : AddrProg (Nat × Bool) := do
  let x ← ofString pl o.name 0
  let y ← ofBase pl fr o
  let same ← equals pl x y
  pure (x, same)

variable (pl) in
/-- `sks::address(o.name())` is an address of the domain of `o` and equal to it. -/
def GuessReconstructs (o : AddressObject) : Prop :=
  ∀ fr s, ∃ x s' a, rename pl fr o s = .ok (x, true) s' ∧ s'.vars.get x = some a ∧
    a.m_domain = pl.domainOf o.family

lemma rename_spec (hn : pl.NtopTotal) (hs : pl.LibraryWorks) {o o' : AddressObject}
    (hfit : o.Fits pl) (hfam : o'.family = o.family)
    (heq : AddressObject.equals o.family o' o = some true)
    (ho : AddressObject.ofString pl .IPv6 o.name = .ok o' ∨
      (∃ e, AddressObject.ofString pl .IPv6 o.name = .error e) ∧
        AddressObject.ofString pl .IPv4 o.name = .ok o') :
    GuessReconstructs pl o := by
  intro fr s
  obtain ⟨st, o₁, hst, hssfam, ho₁, hv⟩ := ofStorage_toSockaddrStorage hn hfit fr
  have hf : pl.familyOf (ssFamily pl st) = some o.family := by
    rw [hssfam, Platform.familyOf_domainOf]
  have hd : pl.domainOf o'.family = ssFamily pl st := by rw [hfam, hssfam]
  have hlater : (((s.heap.push o').push o').erase s.heap.next).get (s.heap.next + 1) =
      some o' := by
    rw [Store.get_erase, if_neg (by omega), ← Store.next_push s.heap o', Store.get_push_self]
  have hsame : AddressObject.equals o.family o' o₁ = some true := by
    rw [← hfam, AddressObject.equals_eq pl hfam] at heq
    have hkey : o'.sortKey pl = o.sortKey pl := by simpa using heq
    rw [← hfam, AddressObject.equals_eq pl (hfam.trans hv.family_eq), hkey]
    exact (AddressObject.equals_eq pl hv.family_eq).symm.trans hv.equals
  have hwp : Prog.wp (rename pl fr o)
      (fun r t => r.2 = true ∧ ∃ a, t.vars.get r.1 = some a ∧ a.m_domain = pl.domainOf o.family)
      (fun _ _ => False) (fun _ => False) s := by
    rw [rename, Prog.wp_bind]
    refine ofString_guess hs ho fun l => ?_
    rw [Prog.wp_bind, wp_ofBase hs hst hf ho₁, Prog.wp_bind,
      wp_equals_set pl (Store.get_push_of_some (Store.get_push_self _ _) _)
        (Store.get_push_self _ _) hd (hd ▸ hf) rfl rfl (Store.get_push_of_some hlater _)
        (Store.get_push_self _ _) hsame]
    exact ⟨rfl, _, Store.get_push_of_some (Store.get_push_self _ _) _, by rw [hfam]⟩
  obtain ⟨⟨x, v⟩, s', hr, hv', a, ha, hdom⟩ := Prog.exists_ok_of_wp hwp
  cases hv'
  exact ⟨x, s', a, hr, ha, hdom⟩

end Addresses

/-- The name of an IP address made from a C structure is taken back by the string constructor
of its class and by the domain-less `sks::address`; the name of one made from a string by the
string constructor. -/
theorem ip_name_reconstructs (h : pl.NumericNames) (hs : pl.LibraryWorks) :
    (∀ m a, IPv4Address.ofSockaddrIn pl m = .ok a →
      AddressObject.NameReconstructs pl (.ipv4 a) ∧ Addresses.GuessReconstructs pl (.ipv4 a)) ∧
    (∀ m a, IPv6Address.ofSockaddrIn6 pl m = .ok a →
      AddressObject.NameReconstructs pl (.ipv6 a) ∧ Addresses.GuessReconstructs pl (.ipv6 a)) ∧
    (∀ addrstr a, IPv4Address.ofString pl addrstr = .ok a →
      AddressObject.NameReconstructs pl (.ipv4 a)) ∧
    (∀ addrstr a, IPv6Address.ofString pl addrstr = .ok a →
      AddressObject.NameReconstructs pl (.ipv6 a)) := by
  refine ⟨fun m a ha => ?_, fun m a ha => ?_, fun addrstr a ha => ?_, fun addrstr a ha => ?_⟩
  · obtain ⟨b, hb, heq⟩ := IPv4Address.name_reconstructs h ha
    obtain ⟨e, he⟩ := IPv6Address.ofString_rejects h ha
    have ho : AddressObject.ofString pl .IPv4 a.name = .ok (.ipv4 b) := by
      rw [AddressObject.ofString, hb]
      rfl
    have hrej : AddressObject.ofString pl .IPv6 a.name = .error e := by
      rw [AddressObject.ofString, he]
      rfl
    have hfam : (AddressObject.ipv4 b).family = (AddressObject.ipv4 a).family := rfl
    have hequal : AddressObject.equals .IPv4 (.ipv4 b) (.ipv4 a) = some true := congrArg some heq
    exact ⟨⟨.ipv4 b, ho, hequal⟩, Addresses.rename_spec h.ntopTotal hs
      (fun u hu => by cases hu) hfam hequal (Or.inr ⟨⟨e, hrej⟩, ho⟩)⟩
  · obtain ⟨b, hb, heq⟩ := IPv6Address.name_reconstructs h ha
    have ho : AddressObject.ofString pl .IPv6 a.name = .ok (.ipv6 b) := by
      rw [AddressObject.ofString, hb]
      rfl
    have hfam : (AddressObject.ipv6 b).family = (AddressObject.ipv6 a).family := rfl
    have hequal : AddressObject.equals .IPv6 (.ipv6 b) (.ipv6 a) = some true := congrArg some heq
    exact ⟨⟨.ipv6 b, ho, hequal⟩, Addresses.rename_spec h.ntopTotal hs
      (fun u hu => by cases hu) hfam hequal (Or.inl ho)⟩
  · refine ⟨.ipv4 a, ?_, by simp [AddressObject.equals, AddressObject.family, IPv4Address.equals]⟩
    rw [AddressObject.name, AddressObject.family, AddressObject.ofString,
      IPv4Address.name_of_ofString ha, ha]
    rfl
  · refine ⟨.ipv6 a, ?_, by simp [AddressObject.equals, AddressObject.family, IPv6Address.equals]⟩
    rw [AddressObject.name, AddressObject.family, AddressObject.ofString,
      IPv6Address.name_of_ofString ha, ha]
    rfl

/-- The numeric host meets what is relied on. -/
lemma numericNames_numericHost (w b c : Bool) : (numericHost w b c).NumericNames := by
  have hne : (numericHost w b c).domainOf .IPv6 ≠ 2 := by
    have h6 := (numericHost w b c).AF_INET6_cases
    simp only [Platform.domainOf]
    omega
  have hquad : ∀ (bs : Memory 4) (c : UInt8), isDigit 10 c = false → c ≠ 46 →
      c ∉ dottedQuad bs.toList :=
    fun bs c hc hsep => notMem_joinNumerals (by decide) (by decide) hc hsep _
  have hgroups : ∀ (bs : Memory 16) (c : UInt8), isDigit 16 c = false → c ≠ 58 →
      c ∉ hexGroups bs.toList :=
    fun bs c hc hsep => notMem_joinNumerals (by decide) (by decide) hc hsep _
  constructor
  · intro bs
    have hlen : bs.toList.length = 4 := bs.toList_length
    have hnul := cStr_of_notMem (hquad bs 0 (by decide) (by decide))
    obtain ⟨st, hst, haddr, hport⟩ := inetStorage_some b 2 0 (show 4 ≤ 4 by decide)
      (show 4 + bs.toList.length ≤ 128 by omega)
    refine ⟨dottedQuad bs.toList, st, rfl, ?_, ?_, by rwa [hlen] at haddr, hport⟩
    · have hchars : (bytes ":[]/").all (fun c => !isDigit 10 c && c != 46) = true := rfl
      intro c hc
      rw [hnul]
      have hand : isDigit 10 c = false ∧ c ≠ 46 := by simpa using List.all_eq_true.mp hchars c hc
      exact hquad bs c hand.1 hand.2
    · rw [hnul]
      simp [numericHost, Platform.domainOf, servicePort, readDottedQuad_dottedQuad hlen, hst]
  · intro bs
    have hlen : bs.toList.length = 16 := bs.toList_length
    have hnul := cStr_of_notMem (hgroups bs 0 (by decide) (by decide))
    obtain ⟨st, hst, haddr, hport⟩ := inetStorage_some b ((numericHost w b c).domainOf .IPv6) 0
      (show 4 ≤ 8 by decide) (show 8 + bs.toList.length ≤ 128 by omega)
    refine ⟨hexGroups bs.toList, st, ?_, ?_, ?_, by rwa [hlen] at haddr, hport⟩
    · exact congrArg Except.ok (if_neg hne)
    · have hchars : (bytes "[]/").all (fun c => !isDigit 16 c && c != 58) = true := rfl
      intro c hc
      rw [hnul]
      have hand : isDigit 16 c = false ∧ c ≠ 58 := by simpa using List.all_eq_true.mp hchars c hc
      exact hgroups bs c hand.1 hand.2
    · rw [hnul, getaddrinfo_numericHost w b c _ hne, readHexGroups_hexGroups hlen,
        Option.bind_some, hst]
      rfl
  · intro bs r port hr
    have hnul := cStr_of_notMem (hquad bs 0 (by decide) (by decide))
    obtain rfl : dottedQuad bs.toList = r := Except.ok.inj hr
    rw [hnul, getaddrinfo_numericHost w b c _ hne, readHexGroups_dottedQuad]
    exact ⟨eaiNoname, rfl⟩

/-- A `sockaddr_in6` with port 443 and the address 2001:db8:1:2:3:4:5:6. -/
def documentationSockaddr : SockaddrIn6 :=
  ⟨[10, 0, 1, 187, 0, 0, 0, 0, 32, 1, 13, 184, 0, 1, 0, 2, 0, 3, 0, 4, 0, 5, 0, 6, 0, 0, 0, 0], rfl⟩

/-- On a Linux host the name of this address is taken back. -/
theorem ip_name_reconstructs_linux : ∃ a,
    IPv6Address.ofSockaddrIn6 linuxHost documentationSockaddr = .ok a ∧
    a.name = bytes "[2001:db8:1:2:3:4:5:6]:443" ∧
    AddressObject.NameReconstructs linuxHost (.ipv6 a) ∧
    Addresses.GuessReconstructs linuxHost (.ipv6 a) := by
  have hall := (ip_name_reconstructs (numericNames_numericHost false false true)
    (libraryWorks_numericHost false false true)).2.1
  obtain ⟨a, ha, hname⟩ : ∃ a,
      IPv6Address.ofSockaddrIn6 linuxHost documentationSockaddr = .ok a ∧
        a.name = bytes "[2001:db8:1:2:3:4:5:6]:443" := ⟨_, rfl, by decide⟩
  exact ⟨a, ha, hname, hall _ a ha⟩

end SockLib
