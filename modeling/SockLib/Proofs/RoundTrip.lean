import SockLib.Model.NumericHost
import SockLib.Proofs.AddressRules
import SockLib.Proofs.Encoding

/-!
# Round trips between addresses and C structures

Decoding inverts encoding on every object that fits its structure, whatever the bytes
hold that the casts never write, and encoding inverts decoding on canonical structures.
-/

namespace SockLib

variable (pl : Platform)

/-- `inet_ntop` formats every address of the two families it is called with. -/
structure Platform.NtopTotal : Prop where
  v4 : ∀ bs : Memory 4, ∃ r, pl.inet_ntop (pl.domainOf .IPv4) bs.toList = .ok r
  v6 : ∀ bs : Memory 16, ∃ r, pl.inet_ntop (pl.domainOf .IPv6) bs.toList = .ok r

/-- The system library starts and is cleaned up whenever it has to be. There is none on POSIX. -/
def Platform.LibraryWorks : Prop :=
  pl.windows = true → ∀ k, pl.WSAStartup k = 0 ∧ pl.WSACleanup k = 0

lemma Platform.LibraryWorks.not_startFails {pl : Platform} (h : pl.LibraryWorks) (l : Library) :
    ¬l.StartFails pl := fun ⟨_, _, hw, hne⟩ => hne (h hw _).1

lemma Platform.LibraryWorks.not_cleanupFails {pl : Platform} (h : pl.LibraryWorks) (l : Library) :
    ¬l.CleanupFails pl := fun ⟨_, _, hw, hne⟩ => hne (h hw _).2

lemma ntopTotal_numericHost (w b c : Bool) : (numericHost w b c).NtopTotal :=
  ⟨fun _ => ⟨_, rfl⟩, fun _ => ⟨_, rfl⟩⟩

lemma libraryWorks_numericHost (w b c : Bool) : (numericHost w b c).LibraryWorks :=
  fun _ _ => ⟨rfl, rfl⟩

namespace AddressObject

/-- Equality of everything but the name kept from construction. -/
def SameValue : AddressObject → AddressObject → Prop
  | .ipv4 a, .ipv4 b => a.m_addr = b.m_addr ∧ a.m_port = b.m_port
  | .ipv6 a, .ipv6 b => a.m_addr = b.m_addr ∧ a.m_port = b.m_port ∧
      a.m_flowInfo = b.m_flowInfo ∧ a.m_scopeId = b.m_scopeId
  | .unix a, .unix b => a.m_addr = b.m_addr
  | _, _ => False

/-- A unix address leaves room for the terminator in `sun_path`. -/
def Fits (o : AddressObject) : Prop :=
  ∀ a, o = .unix a → a.m_addr.length < pl.sunPathSize ∧ a.size ≤ 128

lemma SameValue.family_eq {o o' : AddressObject} (h : o.SameValue o') : o.family = o'.family := by
  cases o <;> cases o' <;> first | rfl | exact h.elim

lemma SameValue.trans {o o' o'' : AddressObject} (h : o.SameValue o') (h' : o'.SameValue o'') :
    o.SameValue o'' := by
  cases o <;> cases o' <;> cases o'' <;> simp_all [SameValue]

lemma SameValue.equals {o o' : AddressObject} (h : o.SameValue o') :
    AddressObject.equals o.family o o' = some true := by
  cases o <;> cases o' <;> simp_all [SameValue, AddressObject.equals, IPv4Address.equals,
    IPv6Address.equals, UnixAddress.equals, AddressObject.family]

lemma SameValue.size_eq {o o' : AddressObject} (h : o.SameValue o') : o.size = o'.size := by
  cases o <;> cases o' <;> simp_all [SameValue, AddressObject.size, IPv4Address.size,
    IPv6Address.size, UnixAddress.size]

lemma SameValue.fits {o o' : AddressObject} (h : o.SameValue o') (hf : o.Fits pl) : o'.Fits pl := by
  intro b hb
  subst hb
  cases o with
  | unix a =>
    have ha := hf a rfl
    have hab : a.m_addr = b.m_addr := h
    have hsz : a.size = b.size := h.size_eq
    rw [← hab, ← hsz]
    exact ha
  | ipv4 _ => exact h.elim
  | ipv6 _ => exact h.elim

end AddressObject

/-! ### Decoding what was encoded -/

section Decode

variable {pl}

variable (pl) in
lemma ofNat_portBytes (p : UInt16) :
    pl.ntohs (UInt16.ofNat (intOfBytes pl.bigEndian
      (intBytes pl.bigEndian 2 (pl.htons p).toNat))) = p := by
  rw [Platform.ofNat_intOfBytes_intBytes, Platform.ntohs_htons]

variable (pl) in
lemma ofNat_u32Bytes (v : UInt32) :
    UInt32.ofNat (intOfBytes pl.bigEndian (intBytes pl.bigEndian 4 v.toNat)) = v := by
  rw [intOfBytes_intBytes _ v.toNat_lt, UInt32.ofNat_toNat]

lemma ofSockaddrIn_ok {m : SockaddrIn} {r : List UInt8}
    (hr : pl.inet_ntop (pl.domainOf .IPv4) (m.slice 4 4) = .ok r) :
    ∃ b, IPv4Address.ofSockaddrIn pl m = .ok b ∧ b.m_addr = m.array 4 4 (by decide) ∧
      b.m_port = pl.ntohs (UInt16.ofNat (intOfBytes pl.bigEndian (m.slice 2 2))) := by
  refine ⟨_, by rw [IPv4Address.ofSockaddrIn, Memory.toList_array, hr], rfl, rfl⟩

lemma ofSockaddrIn6_ok {m : SockaddrIn6} {r : List UInt8}
    (hr : pl.inet_ntop (pl.domainOf .IPv6) (m.slice 8 16) = .ok r) :
    ∃ b, IPv6Address.ofSockaddrIn6 pl m = .ok b ∧
      b.m_addr = groupsOfBytes pl (m.array 8 16 (by decide)) ∧
      b.m_port = pl.ntohs (UInt16.ofNat (intOfBytes pl.bigEndian (m.slice 2 2))) ∧
      b.m_flowInfo = UInt32.ofNat (intOfBytes pl.bigEndian (m.slice 4 4)) ∧
      b.m_scopeId = UInt32.ofNat (intOfBytes pl.bigEndian (m.slice 24 4)) := by
  refine ⟨_, by rw [IPv6Address.ofSockaddrIn6, Memory.toList_array, hr], rfl, rfl, rfl, rfl⟩

lemma ofSockaddrUn_pathname {n : Nat} {m : Memory n} {len : Nat} (hlen : 3 < len)
    (hfirst : m.slice 2 1 ≠ [0]) (hn : len ≤ n + 1) :
    UnixAddress.ofSockaddrUn m len = some ⟨m.slice 2 (len - 3)⟩ := by
  have hload : 2 + 1 ≤ n := by omega
  have hin : 2 + (len - 3) ≤ n := by omega
  simp [UnixAddress.ofSockaddrUn, Memory.load, hlen, hload, hfirst, hin, Nat.sub_sub]

lemma ofSockaddrUn_abstract {n : Nat} {m : Memory n} {len : Nat} (hlen : 2 < len)
    (hfirst : 3 < len → m.slice 2 1 = [0]) (hn : len ≤ n) :
    UnixAddress.ofSockaddrUn m len = some ⟨m.slice 2 (len - 2)⟩ := by
  have hin : 2 + (len - 2) ≤ n := by omega
  have hload : 2 + 1 ≤ n := by omega
  by_cases h3 : 3 < len
  · simp [UnixAddress.ofSockaddrUn, Memory.load, hlen, h3, hload, hfirst h3, hin]
  · simp [UnixAddress.ofSockaddrUn, Memory.load, hlen, h3, hin]

lemma ofSockaddrUn_unnamed {n : Nat} {m : Memory n} {len : Nat} (hlen : len ≤ 2) :
    UnixAddress.ofSockaddrUn m len = some ⟨[]⟩ := by
  simp [UnixAddress.ofSockaddrUn, show ¬3 < len by omega, show ¬2 < len by omega]

lemma ofSockaddrIn_of_holds (hn : pl.NtopTotal) {a : IPv4Address} {m : SockaddrIn}
    (h : HoldsIPv4 pl a m) :
    ∃ b, IPv4Address.ofSockaddrIn pl m = .ok b ∧ a.m_addr = b.m_addr ∧ a.m_port = b.m_port := by
  obtain ⟨r, hr⟩ := hn.v4 (m.array 4 4 (by decide))
  obtain ⟨b, hb, haddr, hport⟩ := ofSockaddrIn_ok hr
  refine ⟨b, hb, ?_, ?_⟩
  · rw [haddr]
    exact Subtype.ext h.addr.symm
  · rw [hport, h.port, ofNat_portBytes]

lemma ofSockaddrIn6_of_holds (hn : pl.NtopTotal) {a : IPv6Address} {m : SockaddrIn6}
    (h : HoldsIPv6 pl a m) :
    ∃ b, IPv6Address.ofSockaddrIn6 pl m = .ok b ∧ a.m_addr = b.m_addr ∧ a.m_port = b.m_port ∧
      a.m_flowInfo = b.m_flowInfo ∧ a.m_scopeId = b.m_scopeId := by
  obtain ⟨r, hr⟩ := hn.v6 (m.array 8 16 (by decide))
  obtain ⟨b, hb, haddr, hport, hflow, hscope⟩ := ofSockaddrIn6_ok hr
  refine ⟨b, hb, ?_, ?_, ?_, ?_⟩
  · rw [haddr]
    apply Subtype.ext
    change a.m_addr.toList = swapEndian pl (words pl.bigEndian (m.slice 8 16))
    rw [h.addr, words_wordBytes, swapEndian_swapEndian]
  · rw [hport, h.port, ofNat_portBytes]
  · rw [hflow, h.flowInfo, ofNat_u32Bytes]
  · rw [hscope, h.scopeId, ofNat_u32Bytes]

lemma HoldsUnix.first {a : UnixAddress} {n : Nat} {m : Memory n} (h : HoldsUnix pl a m) {c : UInt8}
    {cs : List UInt8} (ha : a.m_addr = c :: cs) (hn : 3 ≤ n) : m.slice 2 1 = [c] := by
  have hpath := h.path
  rw [ha, List.length_cons, Nat.add_comm, Memory.slice_add] at hpath
  obtain ⟨d, hd⟩ := List.length_eq_one_iff.mp (m.length_slice hn)
  rw [hd] at hpath ⊢
  rw [(List.cons.inj hpath).1]

/-- The three sub-forms are told apart by their sizes and their first byte. -/
lemma ofSockaddrUn_of_holds {a : UnixAddress} {n : Nat} {m : Memory n} (hsize : a.size ≤ n)
    (h : HoldsUnix pl a m) : UnixAddress.ofSockaddrUn m a.size = some a := by
  obtain ⟨path⟩ := a
  have hpath : m.slice 2 path.length = path := h.path
  cases path with
  | nil => exact ofSockaddrUn_unnamed (by simp [UnixAddress.size])
  | cons c cs =>
    have hge := UnixAddress.size_ge ⟨c :: cs⟩
    rw [List.length_cons] at hge
    have hfirst := h.first rfl (show 3 ≤ n by omega)
    by_cases hc : c = 0
    · have hsz : UnixAddress.size ⟨c :: cs⟩ = (c :: cs).length + 2 := by
        simp [UnixAddress.size, hc]
      rw [hsz] at hsize ⊢
      rw [ofSockaddrUn_abstract (by simp) (fun _ => by rw [hfirst, hc]) hsize,
        Nat.add_sub_cancel, hpath]
    · have hnamed : UnixAddress.named ⟨c :: cs⟩ = true := by simp [UnixAddress.named, hc]
      have hsz : UnixAddress.size ⟨c :: cs⟩ = (c :: cs).length + 3 := by
        rw [UnixAddress.size_named hnamed]
        simp only [List.length_cons]
        omega
      rw [hsz] at hsize ⊢
      rw [ofSockaddrUn_pathname (by simp) (by simpa [hfirst] using hc) (by omega),
        Nat.add_sub_cancel, hpath]

lemma ssFamily_of_slice {st : SockaddrStorage} {f : Family}
    (h : st.slice 0 2 = intBytes pl.bigEndian 2 (pl.domainOf f)) :
    ssFamily pl st = pl.domainOf f := by
  rw [ssFamily, h, intOfBytes_intBytes _ (pl.domainOf_lt f)]

/-- Encoding and decoding give back every object that fits, up to its name. -/
theorem ofStorage_toSockaddrStorage (hn : pl.NtopTotal) {o : AddressObject} (hfit : o.Fits pl)
    (fr : Frame) :
    ∃ st o', o.toSockaddrStorage pl fr = some st ∧ ssFamily pl st = pl.domainOf o.family ∧
      AddressObject.ofStorage pl o.family st o.size = some (.ok o') ∧ o.SameValue o' := by
  cases o with
  | ipv4 a =>
    obtain ⟨st, hst, h⟩ := a.toSockaddrStorage_holds pl fr.struct fr.storage
    have hm : HoldsIPv4 pl a (st.array 0 16 (by decide)) := by
      constructor <;> rw [Memory.slice_array _ _ (by decide), Nat.zero_add]
      exacts [h.family, h.port, h.addr, h.zero]
    obtain ⟨b, hb, haddr, hport⟩ := ofSockaddrIn_of_holds hn hm
    refine ⟨st, .ipv4 b, hst, ssFamily_of_slice h.family, ?_, haddr, hport⟩
    simp only [AddressObject.ofStorage, AddressObject.family, hb]
    rfl
  | ipv6 a =>
    obtain ⟨st, hst, h⟩ := a.toSockaddrStorage_holds pl fr.struct fr.storage
    have hm : HoldsIPv6 pl a (st.array 0 28 (by decide)) := by
      constructor <;> rw [Memory.slice_array _ _ (by decide), Nat.zero_add]
      exacts [h.family, h.port, h.flowInfo, h.addr, h.scopeId]
    obtain ⟨b, hb, hvals⟩ := ofSockaddrIn6_of_holds hn hm
    refine ⟨st, .ipv6 b, hst, ssFamily_of_slice h.family, ?_, hvals⟩
    simp only [AddressObject.ofStorage, AddressObject.family, hb]
    rfl
  | unix a =>
    obtain ⟨hpath, h128⟩ := hfit a rfl
    obtain ⟨st, hst, h⟩ := UnixAddress.toSockaddrStorage_holds pl hpath h128 fr.struct fr.storage
    refine ⟨st, .unix a, hst, ssFamily_of_slice h.family, ?_, rfl⟩
    simp only [AddressObject.ofStorage, AddressObject.family, AddressObject.size,
      ofSockaddrUn_of_holds h128 h, Option.map_some]

lemma fits_of_copyToStorage {n : Nat} {m : Memory n} {size : Nat} {junk : Nat → UInt8}
    {st : SockaddrStorage} (h : copyToStorage m size junk = some st) : size ≤ 128 := by
  obtain ⟨src, hsrc, hst⟩ := Option.bind_eq_some_iff.mp h
  rw [Memory.load] at hsrc
  split at hsrc
  · cases hsrc
    obtain ⟨hle, -⟩ := Memory.toList_of_store hst
    rw [m.length_slice ‹_›] at hle
    omega
  · cases hsrc

/-- What the casts can write into their structures fits. -/
lemma fits_of_toSockaddrStorage {o : AddressObject} {fr : Frame} {st : SockaddrStorage}
    (h : o.toSockaddrStorage pl fr = some st) : o.Fits pl := by
  rintro a rfl
  obtain ⟨addrl, haddrl, hst⟩ := Option.bind_eq_some_iff.mp h
  refine ⟨(toSockaddrUn_isSome pl a fr.struct).mp ?_, fits_of_copyToStorage hst⟩
  rw [haddrl]
  rfl

/-- Whatever is encoded can be decoded again. -/
lemma makes_of_toSockaddrStorage (hn : pl.NtopTotal) (hs : pl.LibraryWorks) {o : AddressObject}
    {fr : Frame} {st : SockaddrStorage} (h : o.toSockaddrStorage pl fr = some st) (l : Library) :
    Addresses.Makes pl l st o.size := by
  obtain ⟨st', o', hst', hfam, ho', -⟩ :=
    ofStorage_toSockaddrStorage hn (fits_of_toSockaddrStorage h) fr
  obtain rfl : st' = st := Option.some.inj (hst'.symm.trans h)
  exact ⟨o.family, o', by rw [hfam, Platform.familyOf_domainOf], ho', hs.not_startFails l⟩

/-! ### Encoding what was decoded -/

variable (pl) in
lemma intBytes_ssFamily (st : SockaddrStorage) :
    intBytes pl.bigEndian 2 (ssFamily pl st) = st.slice 0 2 :=
  intBytes_intOfBytes _ (st.length_slice (by decide))

lemma portBytes_slice {n : Nat} (m : Memory n) (h : 4 ≤ n) :
    intBytes pl.bigEndian 2 (pl.htons (pl.ntohs
      (UInt16.ofNat (intOfBytes pl.bigEndian (m.slice 2 2))))).toNat = m.slice 2 2 := by
  have hlen : (m.slice 2 2).length = 2 := m.length_slice h
  rw [Platform.htons_ntohs, Platform.toNat_ofNat_intOfBytes _ hlen, intBytes_intOfBytes _ hlen]

lemma u32Bytes_slice {n : Nat} (m : Memory n) {off : Nat} (h : off + 4 ≤ n) :
    intBytes pl.bigEndian 4
      (UInt32.ofNat (intOfBytes pl.bigEndian (m.slice off 4))).toNat = m.slice off 4 := by
  have hlen : (m.slice off 4).length = 4 := m.length_slice h
  have hlt := intOfBytes_lt pl.bigEndian hlen
  have hv : (UInt32.ofNat (intOfBytes pl.bigEndian (m.slice off 4))).toNat =
      intOfBytes pl.bigEndian (m.slice off 4) := by
    rw [UInt32.toNat_ofNat']
    omega
  rw [hv, intBytes_intOfBytes _ hlen]

variable (pl) in
/-- The C addresses in the form the kernel and the library's own casts give them. -/
inductive Canonical (st : SockaddrStorage) : Nat → Prop where
  | inet (h : ssFamily pl st = pl.domainOf .IPv4) : Canonical st 16
  | inet6 (h : ssFamily pl st = pl.domainOf .IPv6) : Canonical st 28
  | unnamed (h : ssFamily pl st = pl.domainOf .unix) : Canonical st 2
  | abstract (len : Nat) (h : ssFamily pl st = pl.domainOf .unix) (hfirst : st.slice 2 1 = [0])
      (hmin : 3 ≤ len) (hmax : len ≤ 109) : Canonical st len
  | pathname (len : Nat) (h : ssFamily pl st = pl.domainOf .unix) (hfirst : st.slice 2 1 ≠ [0])
      (hmin : 4 ≤ len) (hmax : len ≤ 110) (hnul : st.slice (len - 1) 1 = [0]) : Canonical st len

variable (pl) in
/-- The first `len` bytes agree, except for `sin_zero`, which is zero in the second. -/
def SameBytes (st st' : SockaddrStorage) (len : Nat) : Prop :=
  if ssFamily pl st = pl.domainOf .IPv4 then
    st'.slice 0 8 = st.slice 0 8 ∧ st'.slice 8 8 = List.replicate 8 0
  else st'.slice 0 len = st.slice 0 len

variable (pl) in
lemma sunPathSize_ge : 108 ≤ pl.sunPathSize := by
  unfold Platform.sunPathSize
  split <;> decide

lemma UnixAddress.fits_of_length {a : UnixAddress} (h : a.m_addr.length ≤ 107) :
    AddressObject.Fits pl (.unix a) := by
  intro b hb
  cases hb
  have hsun := sunPathSize_ge pl
  have hle := a.size_le
  exact ⟨by omega, by omega⟩

lemma sameBytes_unix {st st' : SockaddrStorage} (hfam : ssFamily pl st = pl.domainOf .unix)
    {len : Nat} (h : st'.slice 0 len = st.slice 0 len) : SameBytes pl st st' len := by
  have hne : ssFamily pl st ≠ pl.domainOf .IPv4 := by
    rw [hfam]
    exact fun he => Family.noConfusion (pl.domainOf_inj he)
  rw [SameBytes, if_neg hne]
  exact h

variable (pl) in
/-- Decoding `len` bytes of `st` succeeds, and encoding the result gives them back. -/
def Reencodes (st : SockaddrStorage) (len : Nat) (fr : Frame) : Prop :=
  ∃ f o st', pl.familyOf (ssFamily pl st) = some f ∧ o.family = f ∧
    AddressObject.ofStorage pl f st len = some (.ok o) ∧ o.size = len ∧
    o.toSockaddrStorage pl fr = some st' ∧ SameBytes pl st st' len

lemma reencodes_inet (hn : pl.NtopTotal) {st : SockaddrStorage}
    (hfam : ssFamily pl st = pl.domainOf .IPv4) (fr : Frame) : Reencodes pl st 16 fr := by
  obtain ⟨r, hr⟩ := hn.v4 ((st.array 0 16 (by decide)).array 4 4 (by decide))
  obtain ⟨b, hb, haddr, hport⟩ := ofSockaddrIn_ok hr
  obtain ⟨st', hst', h⟩ := b.toSockaddrStorage_holds pl fr.struct fr.storage
  refine ⟨.IPv4, .ipv4 b, st', by rw [hfam, Platform.familyOf_domainOf], rfl, ?_, rfl, hst', ?_⟩
  · rw [AddressObject.ofStorage, hb]
    rfl
  · rw [SameBytes, if_pos hfam]
    refine ⟨?_, h.zero⟩
    have h0 : st'.slice 0 2 = st.slice 0 2 := by rw [h.family, ← hfam, intBytes_ssFamily]
    have h2 : st'.slice 2 2 = st.slice 2 2 := by
      rw [h.port, hport, portBytes_slice _ (by decide), Memory.slice_array _ _ (by decide)]
    have h4 : st'.slice 4 4 = st.slice 4 4 := by
      rw [h.addr, haddr, Memory.toList_array, Memory.slice_array _ _ (by decide)]
    rw [Memory.slice_add st' 0 4 4, Memory.slice_add st 0 4 4, Memory.slice_add st' 0 2 2,
      Memory.slice_add st 0 2 2, h0, h2, h4]

lemma reencodes_inet6 (hn : pl.NtopTotal) {st : SockaddrStorage}
    (hfam : ssFamily pl st = pl.domainOf .IPv6) (fr : Frame) : Reencodes pl st 28 fr := by
  obtain ⟨r, hr⟩ := hn.v6 ((st.array 0 28 (by decide)).array 8 16 (by decide))
  obtain ⟨b, hb, haddr, hport, hflow, hscope⟩ := ofSockaddrIn6_ok hr
  obtain ⟨st', hst', h⟩ := b.toSockaddrStorage_holds pl fr.struct fr.storage
  refine ⟨.IPv6, .ipv6 b, st', by rw [hfam, Platform.familyOf_domainOf], rfl, ?_, rfl, hst', ?_⟩
  · rw [AddressObject.ofStorage, hb]
    rfl
  · have hne : ssFamily pl st ≠ pl.domainOf .IPv4 := by
      rw [hfam]
      exact fun he => Family.noConfusion (pl.domainOf_inj he)
    rw [SameBytes, if_neg hne]
    have h0 : st'.slice 0 2 = st.slice 0 2 := by rw [h.family, ← hfam, intBytes_ssFamily]
    have h2 : st'.slice 2 2 = st.slice 2 2 := by
      rw [h.port, hport, portBytes_slice _ (by decide), Memory.slice_array _ _ (by decide)]
    have h4 : st'.slice 4 4 = st.slice 4 4 := by
      rw [h.flowInfo, hflow, u32Bytes_slice _ (by decide), Memory.slice_array _ _ (by decide)]
    have h8 : st'.slice 8 16 = st.slice 8 16 := by
      have hlen : (st.slice 8 16).length = 2 * 8 := st.length_slice (by decide)
      rw [h.addr, haddr, groupsOfBytes]
      change wordBytes pl.bigEndian (swapEndian pl (swapEndian pl (words pl.bigEndian
        ((st.array 0 28 _).slice 8 16)))) = _
      rw [swapEndian_swapEndian, Memory.slice_array _ _ (by decide), wordBytes_words _ 8 hlen]
    have h24 : st'.slice 24 4 = st.slice 24 4 := by
      rw [h.scopeId, hscope, u32Bytes_slice _ (by decide), Memory.slice_array _ _ (by decide)]
    rw [Memory.slice_add st' 0 24 4, Memory.slice_add st 0 24 4, Memory.slice_add st' 0 8 16,
      Memory.slice_add st 0 8 16, Memory.slice_add st' 0 4 4, Memory.slice_add st 0 4 4,
      Memory.slice_add st' 0 2 2, Memory.slice_add st 0 2 2, h0, h2, h4, h8, h24]

/-- A decoded unix address that fits and has the size it was decoded with only has to
agree on the bytes behind the path. -/
lemma reencodes_unix {st : SockaddrStorage} {k len : Nat}
    (hfam : ssFamily pl st = pl.domainOf .unix) (hk : k ≤ 107)
    (hof : UnixAddress.ofSockaddrUn st len = some ⟨st.slice 2 k⟩)
    (hsize : UnixAddress.size ⟨st.slice 2 k⟩ = len)
    (hrest : len = 2 + k ∨
      len = 2 + k + 1 ∧ UnixAddress.named ⟨st.slice 2 k⟩ = true ∧ st.slice (2 + k) 1 = [0])
    (fr : Frame) : Reencodes pl st len fr := by
  have hlen : (UnixAddress.mk (st.slice 2 k)).m_addr.length = k := st.length_slice (by omega)
  have hfit : AddressObject.Fits pl (.unix ⟨st.slice 2 k⟩) :=
    UnixAddress.fits_of_length (by omega)
  obtain ⟨st', hst', h⟩ := UnixAddress.toSockaddrStorage_holds pl (hfit _ rfl).1 (hfit _ rfl).2
    fr.struct fr.storage
  have hpath : st'.slice 2 k = st.slice 2 k := by
    have hp := h.path
    rwa [hlen] at hp
  have h0 : st'.slice 0 2 = st.slice 0 2 := by rw [h.family, ← hfam, intBytes_ssFamily]
  refine ⟨.unix, .unix ⟨st.slice 2 k⟩, st', by rw [hfam, Platform.familyOf_domainOf], rfl, ?_,
    hsize, hst', sameBytes_unix hfam ?_⟩
  · rw [AddressObject.ofStorage, hof]
    rfl
  · rcases hrest with hl | ⟨hl, hnamed, hnul⟩
    · rw [hl, Memory.slice_add st', Memory.slice_add st, h0, Nat.zero_add, hpath]
    · have hend : st'.slice (2 + k) 1 = st.slice (2 + k) 1 := by
        have hp := h.nul hnamed
        rwa [hlen, ← hnul] at hp
      rw [hl, Memory.slice_add st', Memory.slice_add st, Memory.slice_add st',
        Memory.slice_add st, h0, Nat.zero_add, Nat.zero_add, hpath, hend]

/-- Every canonical C address is decoded, and encoded again to the same bytes. -/
theorem reencodes_of_canonical (hn : pl.NtopTotal) {st : SockaddrStorage} {len : Nat}
    (hc : Canonical pl st len) (fr : Frame) : Reencodes pl st len fr := by
  cases hc with
  | inet hfam => exact reencodes_inet hn hfam fr
  | inet6 hfam => exact reencodes_inet6 hn hfam fr
  | unnamed hfam =>
    have hnil : st.slice 2 0 = [] := by simp [Memory.slice]
    refine reencodes_unix hfam (Nat.zero_le _) ?_ ?_ (Or.inl rfl) fr
    · rw [ofSockaddrUn_unnamed (Nat.le_refl 2), hnil]
    · rw [hnil]
      rfl
  | abstract _ hfam hfirst hmin hmax =>
    obtain ⟨k, rfl⟩ : ∃ k, len = 2 + (1 + k) := ⟨len - 3, by omega⟩
    have hlen : (st.slice 2 (1 + k)).length = 1 + k := st.length_slice (by omega)
    have hof := ofSockaddrUn_abstract (show 2 < 2 + (1 + k) by omega) (fun _ => hfirst)
      (show 2 + (1 + k) ≤ 128 by omega)
    rw [Nat.add_sub_cancel_left] at hof
    refine reencodes_unix hfam (by omega) hof ?_ (Or.inl rfl) fr
    have hhead : (st.slice 2 (1 + k)).head? = some 0 := by
      rw [Memory.slice_add, hfirst]
      rfl
    simp only [UnixAddress.size, hlen, hhead, ↓reduceIte]
    rw [if_neg (by omega)]
    omega
  | pathname _ hfam hfirst hmin hmax hnul =>
    obtain ⟨k, rfl⟩ : ∃ k, len = (1 + k) + 3 := ⟨len - 4, by omega⟩
    have hlen : (st.slice 2 (1 + k)).length = 1 + k := st.length_slice (by omega)
    have hof := ofSockaddrUn_pathname (show 3 < (1 + k) + 3 by omega) hfirst
      (show (1 + k) + 3 ≤ 128 + 1 by omega)
    rw [Nat.add_sub_cancel] at hof
    have hnamed : UnixAddress.named ⟨st.slice 2 (1 + k)⟩ = true := by
      have h1 : (st.slice 2 1).length = 1 := st.length_slice (by decide)
      obtain ⟨c, hc⟩ := List.length_eq_one_iff.mp h1
      rw [hc] at hfirst
      rw [Memory.slice_add, hc]
      simpa [UnixAddress.named] using hfirst
    refine reencodes_unix hfam (by omega) hof ?_ (Or.inr ⟨by omega, hnamed, ?_⟩) fr
    · rw [UnixAddress.size_named hnamed]
      simp only [hlen]
      omega
    · rw [← hnul]
      congr 1
      omega

end Decode

/-! ### Round trips of `sks::address` -/

namespace Addresses

/-- Wrap an object, cast the address to a C structure and decode this again. -/
def reload (fr fr' : Frame) (o : AddressObject) : AddrProg (Nat × Nat × Bool) := do
  let x ← ofBase pl fr o
  let st ← toSockaddrStorage pl fr' x
  let n ← size x
  let y ← ofStorage pl st n
  let same ← equals pl x y
  pure (x, y, same)

/-- Decode a C structure and cast the address back. -/
def reencode (fr : Frame) (st : SockaddrStorage) (len : Nat) :
    AddrProg (Nat × SockaddrStorage) := do
  let x ← ofStorage pl st len
  let n ← size x
  let st' ← toSockaddrStorage pl fr x
  pure (n, st')

/-- `x` is an address of the domain and with the values of `o`. -/
def Denotes (s : Addresses) (x : Nat) (o : AddressObject) : Prop :=
  ∃ a p o', s.vars.get x = some a ∧ a.m_domain = pl.domainOf o.family ∧ a.base = some p ∧
    s.heap.get p = some o' ∧ o.SameValue o'

variable {pl} {E : Exn → Addresses → Prop} {F : Fault → Prop} {s : Addresses}

/-- Construction from a C structure that decodes. -/
lemma wp_ofStorage (hs : pl.LibraryWorks) {Q : Nat → Addresses → Prop} {st : SockaddrStorage}
    {len : Nat} {f : Family} {o : AddressObject} (hf : pl.familyOf (ssFamily pl st) = some f)
    (ho : AddressObject.ofStorage pl f st len = some (.ok o)) :
    Prog.wp (ofStorage pl st len) Q E F s ↔
      Q s.vars.next { lib := s.lib.enter, heap := s.heap.push o,
                      vars := s.vars.push ⟨ssFamily pl st, some s.heap.next⟩ } := by
  rw [ofStorage, wp_construct,
    wp_assign_blank pl (s.vars.get_push_self _) rfl hf ho (hs.not_startFails _)]
  simp

/-- Construction from an object that encodes and decodes. -/
lemma wp_ofBase (hs : pl.LibraryWorks) {Q : Nat → Addresses → Prop} {fr : Frame}
    {st : SockaddrStorage} {o o' : AddressObject} (hst : o.toSockaddrStorage pl fr = some st)
    (hf : pl.familyOf (ssFamily pl st) = some o.family)
    (ho : AddressObject.ofStorage pl o.family st o.size = some (.ok o')) :
    Prog.wp (ofBase pl fr o) Q E F s ↔
      Q s.vars.next { lib := s.lib.enter, heap := s.heap.push o',
                      vars := s.vars.push ⟨ssFamily pl st, some s.heap.next⟩ } := by
  rw [ofBase, wp_construct, hst, Prog.wp_bind, Prog.wp_demand_some,
    wp_assign_blank pl (s.vars.get_push_self _) rfl hf ho (hs.not_startFails _)]
  simp

lemma reload_spec (hn : pl.NtopTotal) (hs : pl.LibraryWorks) {o : AddressObject}
    (hfit : o.Fits pl) (fr fr' : Frame) (s : Addresses) :
    ∃ x y s', reload pl fr fr' o s = .ok (x, y, true) s' ∧ s'.Denotes pl x o ∧
      s'.Denotes pl y o := by
  obtain ⟨st₁, o₁, hst₁, hfam₁, ho₁, hv₁⟩ := ofStorage_toSockaddrStorage hn hfit fr
  have hfit₁ := hv₁.fits pl hfit
  obtain ⟨st₂, o₂, hst₂, hfam₂, ho₂, hv₂⟩ := ofStorage_toSockaddrStorage hn hfit₁ fr'
  have hf₁ : pl.familyOf (ssFamily pl st₁) = some o.family := by
    rw [hfam₁, Platform.familyOf_domainOf]
  have hf₂ : pl.familyOf (ssFamily pl st₂) = some o₁.family := by
    rw [hfam₂, Platform.familyOf_domainOf]
  have hsame := hv₂.equals
  have hwp : Prog.wp (reload pl fr fr' o)
      (fun r s' => r.2.2 = true ∧ s'.Denotes pl r.1 o ∧ s'.Denotes pl r.2.1 o)
      (fun _ _ => False) (fun _ => False) s := by
    rw [reload, Prog.wp_bind, wp_ofBase hs hst₁ hf₁ ho₁, Prog.wp_bind,
      wp_toSockaddrStorage pl (Store.get_push_self _ _) rfl (Store.get_push_self _ _)]
    simp only [hst₂, reduceCtorEq, false_imp_iff, and_true, Option.some.injEq, forall_eq']
    rw [Prog.wp_bind, wp_size_some (Store.get_push_self _ _) rfl (Store.get_push_self _ _),
      Prog.wp_bind, wp_ofStorage hs hf₂ ho₂, Prog.wp_bind]
    rw [wp_equals_set pl (Store.get_push_of_some (Store.get_push_self _ _) _)
      (Store.get_push_self _ _) (hfam₁.trans (by rw [hfam₂, hv₁.family_eq])) hf₁ rfl rfl
      (Store.get_push_of_some (Store.get_push_self _ _) _) (Store.get_push_self _ _)
      (hv₁.family_eq ▸ hsame)]
    refine ⟨rfl, ?_, ?_⟩
    · exact ⟨_, _, o₁, Store.get_push_of_some (Store.get_push_self _ _) _, hfam₁, rfl,
        Store.get_push_of_some (Store.get_push_self _ _) _, hv₁⟩
    · refine ⟨_, _, o₂, Store.get_push_self _ _, hfam₂.trans (by rw [hv₁.family_eq]), rfl,
        Store.get_push_self _ _, hv₁.trans hv₂⟩
  obtain ⟨⟨x, y, v⟩, s', hr, hv, hx, hy⟩ := Prog.exists_ok_of_wp hwp
  cases hv
  exact ⟨x, y, s', hr, hx, hy⟩

lemma reencode_spec (hn : pl.NtopTotal) (hs : pl.LibraryWorks) {st : SockaddrStorage} {len : Nat}
    (hc : Canonical pl st len) (fr : Frame) (s : Addresses) :
    ∃ st' s', reencode pl fr st len s = .ok (len, st') s' ∧ SameBytes pl st st' len := by
  obtain ⟨f, o, st', hf, hfam, ho, hsize, hst', hsame⟩ := reencodes_of_canonical hn hc fr
  have hwp : Prog.wp (reencode pl fr st len) (fun r _ => r.1 = len ∧ SameBytes pl st r.2 len)
      (fun _ _ => False) (fun _ => False) s := by
    rw [reencode, Prog.wp_bind, wp_ofStorage hs hf ho, Prog.wp_bind,
      wp_size_some (Store.get_push_self _ _) rfl (Store.get_push_self _ _), Prog.wp_bind,
      wp_toSockaddrStorage pl (Store.get_push_self _ _) rfl (Store.get_push_self _ _)]
    simp only [hst', Option.some.injEq, forall_eq', Prog.wp_pure, reduceCtorEq, false_imp_iff,
      and_true]
    exact ⟨hsize, hsame⟩
  obtain ⟨⟨n, st''⟩, s', hr, hn', hb⟩ := Prog.exists_ok_of_wp hwp
  cases hn'
  exact ⟨st'', s', hr, hb⟩

end Addresses

/-- Round trips in both directions. An object of any of the three classes (a unix name of at
most 107 bytes), wrapped, cast and decoded again, yields an equal address with the same
values; a canonical C address, decoded and cast back, yields the same bytes. The locals of
the casts may hold anything. -/
theorem c_structure_round_trip (hn : pl.NtopTotal) (hs : pl.LibraryWorks) :
    (∀ o : AddressObject, (∀ u, o = .unix u → u.m_addr.length ≤ 107) → ∀ fr fr' s,
      ∃ x y s', Addresses.reload pl fr fr' o s = .ok (x, y, true) s' ∧
        s'.Denotes pl x o ∧ s'.Denotes pl y o) ∧
    (∀ st len, Canonical pl st len → ∀ fr s,
      ∃ st' s', Addresses.reencode pl fr st len s = .ok (len, st') s' ∧
        SameBytes pl st st' len) := by
  refine ⟨fun o hlen fr fr' s => ?_, fun st len hc fr s => Addresses.reencode_spec hn hs hc fr s⟩
  have hfit : o.Fits pl := fun a ha => UnixAddress.fits_of_length (hlen a ha) a rfl
  exact Addresses.reload_spec hn hs hfit fr fr' s

/-- The C form of the pathname `/a`, with a byte that is not zero behind its terminator. -/
def pathStorage : SockaddrStorage := Memory.uninit 128 fun i =>
  if i = 0 then 1 else if i = 2 then 47 else if i = 3 then 97 else if i = 5 then 88 else 0

set_option maxRecDepth 2000 in
/-- Both round trips on a Linux host, for an abstract name with a NUL in it and a pathname. -/
theorem c_structure_round_trip_linux :
    (∃ x y s', Addresses.reload linuxHost ⟨fun _ => 170, fun _ => 85⟩ ⟨fun _ => 255, fun _ => 1⟩
      (.unix ⟨[0, 97, 0, 98]⟩) Addresses.initial = .ok (x, y, true) s' ∧
      s'.Denotes linuxHost x (.unix ⟨[0, 97, 0, 98]⟩) ∧
      s'.Denotes linuxHost y (.unix ⟨[0, 97, 0, 98]⟩)) ∧
    ∃ st' s', Addresses.reencode linuxHost ⟨fun _ => 170, fun _ => 85⟩ pathStorage 5
      Addresses.initial = .ok (5, st') s' ∧ SameBytes linuxHost pathStorage st' 5 := by
  obtain ⟨hreload, hreencode⟩ := c_structure_round_trip linuxHost
    (ntopTotal_numericHost false false true) (libraryWorks_numericHost false false true)
  refine ⟨hreload _ ?_ _ _ _, hreencode pathStorage 5 ?_ _ _⟩
  · rintro u h
    cases h
    decide
  · exact .pathname 5 (by decide) (by decide) (by decide) (by decide) (by decide)

end SockLib
