import SockLib.Model.Address

/-!
# What the casts write

For each class, the fields of the C structure after the cast, read back from the
`sockaddr_storage`. Nothing is said of the bytes the casts never write, so what is proved
from these facts holds whatever they contain.
-/

namespace SockLib

variable (pl : Platform)

/-- The family, the port and the address in a stored `sockaddr_in`. -/
structure HoldsIPv4 (a : IPv4Address) {n : Nat} (m : Memory n) : Prop where
  family : m.slice 0 2 = intBytes pl.bigEndian 2 (pl.domainOf .IPv4)
  port : m.slice 2 2 = intBytes pl.bigEndian 2 (pl.htons a.m_port).toNat
  addr : m.slice 4 4 = a.m_addr.toList
  zero : m.slice 8 8 = List.replicate 8 0

/-- The fields in a stored `sockaddr_in6`. -/
structure HoldsIPv6 (a : IPv6Address) {n : Nat} (m : Memory n) : Prop where
  family : m.slice 0 2 = intBytes pl.bigEndian 2 (pl.domainOf .IPv6)
  port : m.slice 2 2 = intBytes pl.bigEndian 2 (pl.htons a.m_port).toNat
  flowInfo : m.slice 4 4 = intBytes pl.bigEndian 4 a.m_flowInfo.toNat
  addr : m.slice 8 16 = wordBytes pl.bigEndian (swapEndian pl a.m_addr.toList)
  scopeId : m.slice 24 4 = intBytes pl.bigEndian 4 a.m_scopeId.toNat

/-- The family and the path in a stored `sockaddr_un`, as far as `size` covers them. -/
structure HoldsUnix (a : UnixAddress) {n : Nat} (m : Memory n) : Prop where
  family : m.slice 0 2 = intBytes pl.bigEndian 2 (pl.domainOf .unix)
  path : m.slice 2 a.m_addr.length = a.m_addr
  nul : a.named = true → m.slice (2 + a.m_addr.length) 1 = [0]

/-! ### The casts to the specific structures -/

lemma toSockaddrIn_holds (a : IPv4Address) (junk : Nat → UInt8) :
    ∃ m, a.toSockaddrIn pl junk = some m ∧ HoldsIPv4 pl a m := by
  have hfam : 0 + (intBytes pl.bigEndian 2 (pl.domainOf .IPv4)).length ≤ 16 := by simp
  have haddr : 4 + a.m_addr.toList.length ≤ 16 := by simp
  have hport : 2 + (intBytes pl.bigEndian 2 (pl.htons a.m_port).toNat).length ≤ 16 := by simp
  have hzero : 8 + (List.replicate 8 (0 : UInt8)).length ≤ 16 := by simp
  obtain ⟨m1, h1⟩ := (Memory.uninit 16 junk).exists_store hfam
  obtain ⟨m2, h2⟩ := m1.exists_store haddr
  obtain ⟨m3, h3⟩ := m2.exists_store hport
  obtain ⟨m4, h4⟩ := m3.exists_store hzero
  have hresult : a.toSockaddrIn pl junk = some m4 := by
    simp only [IPv4Address.toSockaddrIn, h1, h2, h3, h4, Option.bind_eq_bind, Option.bind_some]
  refine ⟨m4, hresult, ?_, ?_, ?_, ?_⟩
  · rw [Memory.slice_store_before h4 (by simp), Memory.slice_store_before h3 (by simp),
      Memory.slice_store_before h2 (by simp), Memory.slice_store_self h1 (by simp)]
  · rw [Memory.slice_store_before h4 (by simp), Memory.slice_store_self h3 (by simp)]
  · rw [Memory.slice_store_before h4 (by simp), Memory.slice_store_after h3 (by simp),
      Memory.slice_store_self h2 (by simp)]
  · rw [Memory.slice_store_self h4 (by simp)]

lemma toSockaddrIn6_holds (a : IPv6Address) (junk : Nat → UInt8) :
    ∃ m, a.toSockaddrIn6 pl junk = some m ∧ HoldsIPv6 pl a m := by
  have hfam : 0 + (intBytes pl.bigEndian 2 (pl.domainOf .IPv6)).length ≤ 28 := by simp
  have hraw : 8 + (wordBytes pl.bigEndian a.m_addr.toList).length ≤ 28 := by simp
  have haddr : 8 + (wordBytes pl.bigEndian (swapEndian pl a.m_addr.toList)).length ≤ 28 := by
    simp [swapEndian]
  have hport : 2 + (intBytes pl.bigEndian 2 (pl.htons a.m_port).toNat).length ≤ 28 := by simp
  have hflow : 4 + (intBytes pl.bigEndian 4 a.m_flowInfo.toNat).length ≤ 28 := by simp
  have hscope : 24 + (intBytes pl.bigEndian 4 a.m_scopeId.toNat).length ≤ 28 := by simp
  obtain ⟨m1, h1⟩ := (Memory.uninit 28 junk).exists_store hfam
  obtain ⟨m2, h2⟩ := m1.exists_store hraw
  obtain ⟨m3, h3⟩ := m2.exists_store haddr
  obtain ⟨m4, h4⟩ := m3.exists_store hport
  obtain ⟨m5, h5⟩ := m4.exists_store hflow
  obtain ⟨m6, h6⟩ := m5.exists_store hscope
  have hread : words pl.bigEndian (m2.slice 8 16) = a.m_addr.toList := by
    rw [Memory.slice_store_self h2 (by simp), words_wordBytes]
  have hresult : a.toSockaddrIn6 pl junk = some m6 := by
    simp [IPv6Address.toSockaddrIn6, h1, h2, hread, h3, h4, h5, h6]
  refine ⟨m6, hresult, ?_, ?_, ?_, ?_, ?_⟩
  · rw [Memory.slice_store_before h6 (by simp), Memory.slice_store_before h5 (by simp),
      Memory.slice_store_before h4 (by simp), Memory.slice_store_before h3 (by simp),
      Memory.slice_store_before h2 (by simp), Memory.slice_store_self h1 (by simp)]
  · rw [Memory.slice_store_before h6 (by simp), Memory.slice_store_before h5 (by simp),
      Memory.slice_store_self h4 (by simp)]
  · rw [Memory.slice_store_before h6 (by simp), Memory.slice_store_self h5 (by simp)]
  · rw [Memory.slice_store_before h6 (by simp), Memory.slice_store_after h5 (by simp),
      Memory.slice_store_after h4 (by simp), Memory.slice_store_self h3 (by simp [swapEndian])]
  · rw [Memory.slice_store_self h6 (by simp)]

/-- The cast to `sockaddr_un` stays inside `sun_path` exactly when one byte is left for
the terminator. -/
lemma toSockaddrUn_isSome (a : UnixAddress) (junk : Nat → UInt8) :
    (a.toSockaddrUn pl junk).isSome ↔ a.m_addr.length < pl.sunPathSize := by
  have hfam : 0 + (intBytes pl.bigEndian 2 (pl.domainOf .unix)).length ≤ pl.sockaddrUnSize := by
    simp [Platform.sockaddrUnSize]
  obtain ⟨m1, h1⟩ := (Memory.uninit pl.sockaddrUnSize junk).exists_store hfam
  by_cases hfit : a.m_addr.length < pl.sunPathSize
  · have hpath : 2 + a.m_addr.length ≤ pl.sockaddrUnSize := by
      unfold Platform.sockaddrUnSize
      omega
    obtain ⟨m2, h2⟩ := m1.exists_store hpath
    have hnul : 2 + a.m_addr.length + [(0 : UInt8)].length ≤ pl.sockaddrUnSize := by
      simp only [List.length_singleton, Platform.sockaddrUnSize]
      omega
    obtain ⟨m3, h3⟩ := m2.exists_store hnul
    simp [UnixAddress.toSockaddrUn, h1, h2, h3, hfit]
  · cases h2 : m1.store 2 a.m_addr with
    | none => simp [UnixAddress.toSockaddrUn, h1, h2, hfit]
    | some m2 =>
      have h3 : m2.store (2 + a.m_addr.length) [0] = none := by
        rw [Memory.store_none, List.length_singleton, Platform.sockaddrUnSize]
        omega
      simp [UnixAddress.toSockaddrUn, h1, h2, h3, hfit]

lemma toSockaddrUn_holds {a : UnixAddress} (hfit : a.m_addr.length < pl.sunPathSize)
    (junk : Nat → UInt8) : ∃ m, a.toSockaddrUn pl junk = some m ∧ HoldsUnix pl a m := by
  obtain ⟨m, hm⟩ := Option.isSome_iff_exists.mp ((toSockaddrUn_isSome pl a junk).mpr hfit)
  refine ⟨m, hm, ?_⟩
  simp only [UnixAddress.toSockaddrUn, Option.bind_eq_bind, Option.bind_eq_some_iff] at hm
  obtain ⟨m1, h1, m2, h2, h3⟩ := hm
  refine ⟨?_, ?_, fun _ => ?_⟩
  · rw [Memory.slice_store_before h3 (by omega), Memory.slice_store_before h2 (by omega),
      Memory.slice_store_self h1 (by simp)]
  · rw [Memory.slice_store_before h3 (by omega), Memory.slice_store_self h2 rfl]
  · exact Memory.slice_store_self h3 (show 1 = [(0 : UInt8)].length from rfl)

/-! ### The casts to `sockaddr_storage` -/

/-- The copied part of a structure is found at the same place of the storage. -/
lemma copyToStorage_holds {n : Nat} (struct : Memory n) {size : Nat} (hn : size ≤ n)
    (h128 : size ≤ 128) (junk : Nat → UInt8) :
    ∃ st, copyToStorage struct size junk = some st ∧
      ∀ off len, off + len ≤ size → st.slice off len = struct.slice off len := by
  have hsrc : struct.load 0 size = some (struct.slice 0 size) := by
    rw [Memory.load, if_pos (by omega)]
  have hlen : (struct.slice 0 size).length = size := struct.length_slice (by omega)
  obtain ⟨st, hst⟩ := (Memory.uninit 128 junk).exists_store
    (show 0 + (struct.slice 0 size).length ≤ 128 by omega)
  refine ⟨st, by simp [copyToStorage, hsrc, hst], fun off len hle => ?_⟩
  rw [Memory.slice_store hst (Nat.zero_le _) (by omega), Nat.sub_zero, Memory.slice, Memory.slice,
    List.drop_zero, List.drop_take, List.take_take, Nat.min_eq_left (by omega)]

lemma IPv4Address.toSockaddrStorage_holds (a : IPv4Address) (junk junk' : Nat → UInt8) :
    ∃ st, a.toSockaddrStorage pl junk junk' = some st ∧ HoldsIPv4 pl a st := by
  obtain ⟨m, hm, h⟩ := toSockaddrIn_holds pl a junk
  obtain ⟨st, hst, hs⟩ := copyToStorage_holds m (Nat.le_refl 16) (by decide) junk'
  refine ⟨st, by simp [IPv4Address.toSockaddrStorage, hm, IPv4Address.size, hst], ?_⟩
  exact ⟨(hs 0 2 (by decide)).trans h.family, (hs 2 2 (by decide)).trans h.port,
    (hs 4 4 (by decide)).trans h.addr, (hs 8 8 (by decide)).trans h.zero⟩

lemma IPv6Address.toSockaddrStorage_holds (a : IPv6Address) (junk junk' : Nat → UInt8) :
    ∃ st, a.toSockaddrStorage pl junk junk' = some st ∧ HoldsIPv6 pl a st := by
  obtain ⟨m, hm, h⟩ := toSockaddrIn6_holds pl a junk
  obtain ⟨st, hst, hs⟩ := copyToStorage_holds m (Nat.le_refl 28) (by decide) junk'
  refine ⟨st, by simp [IPv6Address.toSockaddrStorage, hm, IPv6Address.size, hst], ?_⟩
  exact ⟨(hs 0 2 (by decide)).trans h.family, (hs 2 2 (by decide)).trans h.port,
    (hs 4 4 (by decide)).trans h.flowInfo, (hs 8 16 (by decide)).trans h.addr,
    (hs 24 4 (by decide)).trans h.scopeId⟩

lemma UnixAddress.size_le (a : UnixAddress) : a.size ≤ 2 + a.m_addr.length + 1 := by
  unfold UnixAddress.size
  split
  · omega
  · split <;> omega

lemma UnixAddress.size_ge (a : UnixAddress) : 2 + a.m_addr.length ≤ a.size := by
  unfold UnixAddress.size
  split
  · omega
  · split <;> omega

lemma UnixAddress.size_named {a : UnixAddress} (h : a.named = true) :
    a.size = 2 + a.m_addr.length + 1 := by
  simp only [UnixAddress.named, Bool.and_eq_true, decide_eq_true_eq] at h
  rw [UnixAddress.size, if_neg (by omega), if_neg h.2]

lemma UnixAddress.toSockaddrStorage_holds {a : UnixAddress}
    (hfit : a.m_addr.length < pl.sunPathSize) (h128 : a.size ≤ 128) (junk junk' : Nat → UInt8) :
    ∃ st, a.toSockaddrStorage pl junk junk' = some st ∧ HoldsUnix pl a st := by
  obtain ⟨m, hm, h⟩ := toSockaddrUn_holds pl hfit junk
  have hle := a.size_le
  have hge := a.size_ge
  have hun : a.size ≤ pl.sockaddrUnSize := by
    unfold Platform.sockaddrUnSize
    omega
  obtain ⟨st, hst, hs⟩ := copyToStorage_holds m hun h128 junk'
  refine ⟨st, by simp [UnixAddress.toSockaddrStorage, hm, hst], ?_⟩
  refine ⟨(hs 0 2 (by omega)).trans h.family, (hs 2 _ hge).trans h.path, fun hn => ?_⟩
  exact (hs _ 1 (UnixAddress.size_named hn).ge).trans (h.nul hn)

end SockLib
