import SockLib.Model.NumericHost
import SockLib.Proofs.Splitting

/-!
# The order of IP addresses

The IP classes compare arrays, bytes for IPv4 and host integers for IPv6. On either kind of
host this is the order of the addresses as numbers in network order, and of the ports where
the addresses are equal.
-/

namespace SockLib

/-- The address in a C structure as one number in network order, then the port. -/
def networkKey {n : Nat} (m : Memory n) (off len : Nat) : ℕ ×ₗ ℕ :=
  toLex (intOfBytes true (m.slice off len), intOfBytes true (m.slice 2 2))

lemma spelled_eq_ofDigits (bs : List UInt8) :
    spelled bs = Nat.ofDigits 256 (bs.map UInt8.toNat) := by
  induction bs with
  | nil => rfl
  | cons b bs ih => rw [spelled, ih, List.map_cons, Nat.ofDigits_cons]

lemma intOfBytes_eq_positional (bs : List UInt8) :
    intOfBytes true bs = positional 256 UInt8.toNat bs := by
  rw [intOfBytes, if_pos rfl, spelled_eq_ofDigits, List.map_reverse]
  rfl

/-- Grouping the bytes in pairs does not change the number. -/
lemma positional_words (k : Nat) {bs : List UInt8} (h : bs.length = 2 * k) :
    positional (2 ^ 16) UInt16.toNat (words true bs) = positional 256 UInt8.toNat bs := by
  induction k, bs, h using pairs_induction with
  | nil => rfl
  | pair k x y bs hbs ih =>
    have hpair : (UInt16.ofNat (intOfBytes true [x, y])).toNat = y.toNat + 256 * x.toNat := by
      rw [Platform.toNat_ofNat_intOfBytes true rfl]
      rfl
    have hpow : (2 ^ 16) ^ k = 256 ^ (2 * k) := by
      rw [pow_mul]
      norm_num
    rw [words, positional_cons, positional_cons, positional_cons, ih, hpair,
      length_words true k hbs, hpow, List.length_cons, hbs, pow_succ]
    ring

lemma getElem_words (k : Nat) {bs : List UInt8} (h : bs.length = 2 * k) {i : Nat} (hi : i < k) :
    ((words true bs)[i]?).map UInt16.toNat =
      (bs[2 * i]?).bind fun x => (bs[2 * i + 1]?).map fun y => 256 * x.toNat + y.toNat := by
  induction k, bs, h using pairs_induction generalizing i with
  | nil => omega
  | pair k x y bs hbs ih =>
    cases i with
    | zero =>
      have hpair : (UInt16.ofNat (intOfBytes true [x, y])).toNat = 256 * x.toNat + y.toNat := by
        rw [Platform.toNat_ofNat_intOfBytes true rfl]
        exact Nat.add_comm _ _
      simp [words, hpair]
    | succ i =>
      have hrest := ih (Nat.lt_of_succ_lt_succ hi)
      have hdouble : 2 * (i + 1) = 2 * i + 1 + 1 := by ring
      rw [words, List.getElem?_cons_succ, hrest, hdouble, List.getElem?_cons_succ,
        List.getElem?_cons_succ, List.getElem?_cons_succ, List.getElem?_cons_succ]

section Decoded

variable {pl : Platform}

lemma toNat_port {n : Nat} {m : Memory n} (h : 4 ≤ n) :
    (pl.ntohs (UInt16.ofNat (intOfBytes pl.bigEndian (m.slice 2 2)))).toNat =
      intOfBytes true (m.slice 2 2) := by
  have hlen : (m.slice 2 2).length = 2 := m.length_slice h
  rw [ntohs_ofBytes hlen, Platform.toNat_ofNat_intOfBytes true hlen]

lemma IPv4Address.decoded {m : SockaddrIn} {a : IPv4Address} (h : ofSockaddrIn pl m = .ok a) :
    a.m_addr.toList = m.slice 4 4 ∧ a.m_port.toNat = intOfBytes true (m.slice 2 2) := by
  rw [ofSockaddrIn] at h
  split at h
  · cases h
  · cases h
    exact ⟨rfl, toNat_port (by decide)⟩

/-- The groups are the pairs of network bytes, most significant byte first. -/
lemma IPv6Address.decoded {m : SockaddrIn6} {a : IPv6Address} (h : ofSockaddrIn6 pl m = .ok a) :
    a.m_addr.toList = words true (m.slice 8 16) ∧
      a.m_port.toNat = intOfBytes true (m.slice 2 2) := by
  rw [ofSockaddrIn6] at h
  split at h
  · cases h
  · cases h
    exact ⟨swapEndian_words 8 (m.length_slice (by decide)), toNat_port (by decide)⟩

lemma IPv4Address.less_iff {m m' : SockaddrIn} {a b : IPv4Address}
    (ha : ofSockaddrIn pl m = .ok a) (hb : ofSockaddrIn pl m' = .ok b) :
    a.less b = true ↔ networkKey m 4 4 < networkKey m' 4 4 := by
  obtain ⟨haddr, hport⟩ := decoded ha
  obtain ⟨haddr', hport'⟩ := decoded hb
  have hless : ∀ c d : UInt8, decide (c < d) = true ↔ c.toNat < d.toNat := by
    simp [UInt8.lt_iff_toNat_lt]
  have hinj : Function.Injective UInt8.toNat := fun c d h => UInt8.toNat_inj.mp h
  have hlen : a.m_addr.toList.length = b.m_addr.toList.length := by simp
  have hkey := lexLess_then_iff_positional hless UInt8.toNat_lt hinj hlen a.m_port.toNat
    b.m_port.toNat
  rw [networkKey, networkKey, ← haddr, ← haddr', ← hport, ← hport', intOfBytes_eq_positional,
    intOfBytes_eq_positional, ← hkey, less]
  simp only [ne_eq, List.Vector.toList_injective.eq_iff, UInt16.lt_iff_toNat_lt]

lemma IPv6Address.less_iff {m m' : SockaddrIn6} {a b : IPv6Address}
    (ha : ofSockaddrIn6 pl m = .ok a) (hb : ofSockaddrIn6 pl m' = .ok b) :
    a.less b = true ↔ networkKey m 8 16 < networkKey m' 8 16 := by
  obtain ⟨haddr, hport⟩ := decoded ha
  obtain ⟨haddr', hport'⟩ := decoded hb
  have hless : ∀ c d : UInt16, decide (c < d) = true ↔ c.toNat < d.toNat := by
    simp [UInt16.lt_iff_toNat_lt]
  have hinj : Function.Injective UInt16.toNat := fun c d h => UInt16.toNat_inj.mp h
  have hlen : a.m_addr.toList.length = b.m_addr.toList.length := by simp
  have hkey := lexLess_then_iff_positional hless UInt16.toNat_lt hinj hlen a.m_port.toNat
    b.m_port.toNat
  rw [networkKey, networkKey, ← hport, ← hport', intOfBytes_eq_positional,
    intOfBytes_eq_positional, ← positional_words 8 (m.length_slice (by decide)),
    ← positional_words 8 (m'.length_slice (by decide)), ← haddr, ← haddr', ← hkey, less]
  simp only [ne_eq, List.Vector.toList_injective.eq_iff, UInt16.lt_iff_toNat_lt]

end Decoded

/-- `operator<` of the IP classes is the order of network keys, so it is the same on every host,
and the groups of an IPv6 address are the big-endian ones. -/
theorem ip_order_is_numeric (pl : Platform) :
    (∀ m m' a b, IPv4Address.ofSockaddrIn pl m = .ok a → IPv4Address.ofSockaddrIn pl m' = .ok b →
      (a.less b = true ↔ networkKey m 4 4 < networkKey m' 4 4)) ∧
    (∀ m m' a b, IPv6Address.ofSockaddrIn6 pl m = .ok a →
      IPv6Address.ofSockaddrIn6 pl m' = .ok b →
      (a.less b = true ↔ networkKey m 8 16 < networkKey m' 8 16)) ∧
    ∀ m a, IPv6Address.ofSockaddrIn6 pl m = .ok a → ∀ i (_ : i < 8),
      a.addr[i].toNat = 256 * m[8 + 2 * i].toNat + m[8 + 2 * i + 1].toNat := by
  refine ⟨fun m m' a b ha hb => IPv4Address.less_iff ha hb,
    fun m m' a b ha hb => IPv6Address.less_iff ha hb, fun m a ha i hi => ?_⟩
  obtain ⟨haddr, -⟩ := IPv6Address.decoded ha
  have hget := getElem_words 8 (m.length_slice (show 8 + 16 ≤ 28 by decide)) hi
  have hgroup : a.m_addr.toList[i]? = some a.addr[i] := by
    rw [IPv6Address.addr, List.Vector.getElem_def, List.getElem?_eq_getElem]
  have hbyte : ∀ j (_ : j < 16), (m.slice 8 16)[j]? = some m[8 + j] := by
    intro j hj
    rw [Memory.slice, List.getElem?_take_of_lt hj, List.getElem?_drop, List.Vector.getElem_def,
      List.getElem?_eq_getElem]
  rw [← haddr, hgroup, hbyte (2 * i) (by omega), hbyte (2 * i + 1) (by omega)] at hget
  exact Option.some.inj hget

/-- A `sockaddr_in6` with the given last group and zeros elsewhere. -/
def lastGroupSockaddr (x y : UInt8) : SockaddrIn6 :=
  ⟨List.replicate 22 0 ++ [x, y] ++ List.replicate 4 0, rfl⟩

/-- `::2` comes before `::100` on a little-endian and on a big-endian host. -/
theorem ip_order_is_numeric_hosts :
    (∃ a b, IPv6Address.ofSockaddrIn6 linuxHost (lastGroupSockaddr 0 2) = .ok a ∧
      IPv6Address.ofSockaddrIn6 linuxHost (lastGroupSockaddr 1 0) = .ok b ∧ a.less b = true) ∧
    ∃ a b, IPv6Address.ofSockaddrIn6 (numericHost false true true) (lastGroupSockaddr 0 2) =
        .ok a ∧
      IPv6Address.ofSockaddrIn6 (numericHost false true true) (lastGroupSockaddr 1 0) = .ok b ∧
      a.less b = true := by
  have hkey :
      networkKey (lastGroupSockaddr 0 2) 8 16 < networkKey (lastGroupSockaddr 1 0) 8 16 := by
    rw [networkKey, networkKey, Prod.Lex.toLex_lt_toLex]
    decide
  constructor
  · refine ⟨_, _, rfl, rfl, ?_⟩
    exact ((ip_order_is_numeric linuxHost).2.1 _ _ _ _ rfl rfl).mpr hkey
  · refine ⟨_, _, rfl, rfl, ?_⟩
    exact ((ip_order_is_numeric (numericHost false true true)).2.1 _ _ _ _ rfl rfl).mpr hkey

end SockLib
