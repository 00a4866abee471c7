import SockLib.Foundation.Outcome
import SockLib.Model.IPv6Address
import SockLib.Model.NumericHost

/-!
# Splitting address strings

The documented formats of the IP classes are composed of a scheme, a host and a port. The
string constructors take such a text apart again, and ask for this host and this scheme. The
port is read as a number of any size and then narrowed to sixteen bits.
-/

namespace SockLib

/-- A text of decimal digits. -/
structure Digits (ds : List UInt8) : Prop where
  ne_nil : ds ≠ []
  digit : ∀ c ∈ ds, isDigit 10 c = true

/-- The number that digits denote. -/
def decimal (ds : List UInt8) : Nat := numeralValue 10 0 ds

/-- What an address string is composed of. -/
structure AddressText where
  scheme : Option (List UInt8)
  host : List UInt8
  port : Option (List UInt8)

namespace AddressText

/-- `host`, `host:port`, `scheme://host` or `scheme://host:port`. -/
def url (t : AddressText) : List UInt8 :=
  t.scheme.elim [] (· ++ bytes "://") ++ (t.host ++ t.port.elim [] (bytes ":" ++ ·))

/-- The formats of IPv6 addresses, where a port without a scheme takes brackets. -/
def ipv6 (t : AddressText) : List UInt8 :=
  match t.scheme, t.port with
  | none, some ds => bytes "[" ++ t.host ++ bytes "]:" ++ ds
  | _, _ => t.url

/-- A host with neither colon nor slash, and a scheme without colon. -/
structure IsUrl (t : AddressText) : Prop where
  scheme : ∀ s, t.scheme = some s → s ≠ [] ∧ (58 : UInt8) ∉ s
  host : (58 : UInt8) ∉ t.host ∧ (47 : UInt8) ∉ t.host
  port : ∀ ds, t.port = some ds → Digits ds

/-- A literal address with its colons, but without brackets. -/
structure IsLiteral (t : AddressText) : Prop where
  scheme : t.scheme = none
  host : (93 : UInt8) ∉ t.host ∧ ¬bytes "://" <:+: t.host ∧ t.host.head? ≠ some 91
  port : ∀ ds, t.port = some ds → Digits ds

/-- The documented texts of IPv6 addresses. -/
def IsIPv6 (t : AddressText) : Prop := t.scheme ≠ none ∧ t.IsUrl ∨ t.IsLiteral

/-- The port that the constructors keep, zero when there is none. -/
def readPort (pl : Platform) (t : AddressText) : Except Exn UInt16 :=
  match t.port with
  | some ds => (stoul pl ds).map UInt16.ofNat
  | none => .ok 0

end AddressText

section Digits

variable {pl : Platform}

lemma Digits.numeral (n : Nat) : Digits (numeral 10 n) :=
  ⟨numeral_ne_nil 10 n, fun _ hc => isDigit_of_mem_numeral (by decide) (by decide) hc⟩

lemma decimal_numeral (n : Nat) : decimal (numeral 10 n) = n :=
  numeralValue_numeral (by decide) (by decide) n

lemma Digits.notMem {ds : List UInt8} (h : Digits ds) {c : UInt8} (hc : isDigit 10 c = false) :
    c ∉ ds := by
  intro hmem
  rw [h.digit c hmem] at hc
  cases hc

/-- Digits are read as the number they denote when it fits into an `unsigned long`. -/
lemma stoul_digits {ds : List UInt8} (h : Digits ds) :
    stoul pl ds = if pl.ulongMax < decimal ds then .error (.outOfRange (bytes "stoul"))
      else .ok (decimal ds) := by
  obtain ⟨c, cs, hcs⟩ := List.exists_cons_of_ne_nil h.ne_nil
  obtain ⟨hlo, hhi⟩ := isDigit_ten.mp (h.digit c (by simp [hcs]))
  have hspace : ¬(c = 32 ∨ (9 ≤ c ∧ c ≤ 13)) := by
    rw [← UInt8.toNat_inj, UInt8.le_iff_toNat_le, UInt8.le_iff_toNat_le]
    simp only [UInt8.reduceToNat]
    omega
  have hsign : c ≠ 45 ∧ c ≠ 43 := by
    rw [ne_eq, ne_eq, ← UInt8.toNat_inj, ← UInt8.toNat_inj]
    simp only [UInt8.reduceToNat]
    omega
  have hdrop : ds.dropWhile (fun c => decide (c = 32 ∨ (9 ≤ c ∧ c ≤ 13))) = ds := by
    rw [hcs, List.dropWhile_cons_of_neg (by simpa using hspace)]
  have htake : ds.takeWhile (isDigit 10) = ds := List.takeWhile_eq_self_iff.mpr h.digit
  have hhead : ds.head? = some c := by rw [hcs, List.head?_cons]
  simp only [stoul, hdrop, hhead, Option.some.injEq, hsign.1, hsign.2, or_self, if_false, htake,
    h.ne_nil, decimal]
  rfl

end Digits

section Split

variable {pl : Platform} {t : AddressText}

/-- The rest after the scheme: a host, with a port behind the first colon if there is one. -/
lemma find_colon_rest (h : t.IsUrl) :
    find (bytes ":") (t.host ++ t.port.elim [] (bytes ":" ++ ·)) =
      t.port.map fun _ => t.host.length := by
  cases hp : t.port with
  | none =>
    rw [Option.elim_none, List.append_nil, Option.map_none]
    exact find_eq_none (c := 58) (by decide) h.host.1
  | some ds => exact find_append h.host.1

/-- A slash is found behind a scheme only. -/
lemma find_delim_rest (h : t.IsUrl) :
    find (bytes "://") (t.host ++ t.port.elim [] (bytes ":" ++ ·)) = none := by
  apply find_eq_none (c := 47) (by decide)
  rw [List.mem_append]
  rintro (hmem | hmem)
  · exact h.host.2 hmem
  · cases hp : t.port with
    | none =>
      rw [hp] at hmem
      cases hmem
    | some ds =>
      rw [hp, Option.elim_some, List.mem_append] at hmem
      rcases hmem with hmem | hmem
      · exact absurd hmem (by decide)
      · exact (h.port ds hp).notMem (by decide) hmem

/-- Taking the rest apart at its first colon. -/
lemma split_rest (h : t.IsUrl) (scheme : List UInt8) :
    (match find (bytes ":") (t.host ++ t.port.elim [] (bytes ":" ++ ·)) with
      | some colonIndex => do
        let port ← stoul pl ((t.host ++ t.port.elim [] (bytes ":" ++ ·)).drop (colonIndex + 1))
        pure ((t.host ++ t.port.elim [] (bytes ":" ++ ·)).take colonIndex, scheme,
          UInt16.ofNat port)
      | none => pure (t.host ++ t.port.elim [] (bytes ":" ++ ·), scheme, 0)) =
      (t.readPort pl).map fun port => (t.host, scheme, port) := by
  rw [find_colon_rest h]
  cases hp : t.port with
  | none => simp [AddressText.readPort, hp, Except.map, pure, Except.pure]
  | some ds =>
    have hdrop : (t.host ++ (bytes ":" ++ ds)).drop (t.host.length + 1) = ds := by
      rw [← List.drop_drop, List.drop_left]
      rfl
    simp only [Option.map_some, Option.elim_some, AddressText.readPort, hp, hdrop, List.take_left]
    cases stoul pl ds <;> rfl

/-- The parts of a text with a scheme are separated by the first delimiter. -/
lemma find_delim_scheme {s : List UInt8} (hs : (58 : UInt8) ∉ s) (as : List UInt8) :
    find (bytes "://") (s ++ bytes "://" ++ as) = some s.length := by
  rw [List.append_assoc]
  exact find_append hs

lemma drop_delim (s as : List UInt8) : (s ++ bytes "://" ++ as).drop (s.length + 3) = as := by
  rw [List.append_assoc, ← List.drop_drop, List.drop_left]
  rfl

lemma take_delim (s as : List UInt8) : (s ++ bytes "://" ++ as).take s.length = s := by
  rw [List.append_assoc, List.take_left]

variable (pl) in
/-- The constructor of IPv4 addresses takes its documented texts apart again. -/
theorem IPv4Address.splitAddress_url (h : t.IsUrl) :
    splitAddress pl t.url = (t.readPort pl).map fun port => (t.host, t.scheme.getD [], port) := by
  unfold splitAddress AddressText.url
  cases hs : t.scheme with
  | none =>
    simp only [Option.elim_none, List.nil_append, find_delim_rest h, Option.getD_none]
    exact split_rest h []
  | some s =>
    simp only [Option.elim_some, find_delim_scheme (h.scheme s hs).2, drop_delim, take_delim,
      Option.getD_some]
    exact split_rest h s

variable (pl) in
/-- A bracketed literal, a colon and a port. -/
lemma IPv6Address.splitAddress_bracketed (h : t.IsLiteral) {ds : List UInt8}
    (hp : t.port = some ds) :
    splitAddress pl (bytes "[" ++ t.host ++ bytes "]:" ++ ds) =
      (t.readPort pl).map fun port => (t.host, [], port) := by
  have hds := h.port ds hp
  have hnone : find (bytes "://") (bytes "[" ++ t.host ++ bytes "]:" ++ ds) = none := by
    have htext :
        bytes "[" ++ t.host ++ bytes "]:" ++ ds = [] ++ 91 :: (t.host ++ 93 :: 58 :: ds) := by
      rw [List.append_assoc]
      rfl
    rw [find_eq_none_iff, htext]
    intro hin
    rcases infix_append_cons (by decide) (by decide) hin with hl | hr
    · exact absurd (List.infix_nil.mp hl) (by decide)
    · rcases infix_append_cons (by decide) (by decide) hr with hl | hr
      · exact h.host.2.1 hl
      · have hslash : (47 : UInt8) ∈ 58 :: ds := hr.subset (by decide)
        rcases List.mem_cons.mp hslash with hc | hc
        · exact absurd hc (by decide)
        · exact hds.notMem (by decide) hc
  have hopen : find (bytes "[") (bytes "[" ++ t.host ++ bytes "]:" ++ ds) = some 0 := rfl
  have hclose : find (bytes "]:") (bytes "[" ++ t.host ++ bytes "]:" ++ ds) =
      some (t.host.length + 1) := by
    have hb : (93 : UInt8) ∉ bytes "[" ++ t.host := by
      rw [List.mem_append]
      rintro (hc | hc)
      · exact absurd hc (by decide)
      · exact h.host.1 hc
    rw [List.append_assoc]
    exact find_append hb
  have hlen : (bytes "[" ++ t.host).length = t.host.length + 1 := rfl
  have htake : (bytes "[" ++ t.host ++ bytes "]:" ++ ds).take (t.host.length + 1) =
      bytes "[" ++ t.host := by
    rw [← hlen, List.append_assoc, List.take_left]
  have hdrop : (bytes "[" ++ t.host ++ bytes "]:" ++ ds).drop (t.host.length + 1 + 2) = ds := by
    rw [← List.drop_drop, ← hlen, List.append_assoc, List.drop_left]
    rfl
  have hinner : (bytes "[" ++ t.host).drop 1 = t.host := rfl
  simp only [splitAddress, hnone, hopen, hclose, htake, hdrop, hinner, AddressText.readPort, hp]
  cases stoul pl ds <;> rfl

/-- The constructor of IPv6 addresses takes its documented texts apart again. -/
theorem IPv6Address.splitAddress_ipv6 (h : t.IsIPv6) :
    splitAddress pl t.ipv6 = (t.readPort pl).map fun port => (t.host, t.scheme.getD [], port) := by
  rcases h with ⟨hne, h⟩ | h
  · obtain ⟨s, hs⟩ := Option.ne_none_iff_exists'.mp hne
    have htext : t.ipv6 = s ++ bytes "://" ++ (t.host ++ t.port.elim [] (bytes ":" ++ ·)) := by
      simp [AddressText.ipv6, AddressText.url, hs]
    rw [htext]
    simp only [splitAddress, find_delim_scheme (h.scheme s hs).2, drop_delim, take_delim, hs,
      Option.getD_some]
    exact split_rest h s
  · rw [h.scheme, Option.getD_none]
    cases hp : t.port with
    | some ds =>
      have htext : t.ipv6 = bytes "[" ++ t.host ++ bytes "]:" ++ ds := by
        simp [AddressText.ipv6, h.scheme, hp]
      rw [htext]
      exact splitAddress_bracketed pl h hp
    | none =>
      have htext : t.ipv6 = t.host := by
        simp [AddressText.ipv6, AddressText.url, h.scheme, hp]
      have hclose : find (bytes "]:") t.host = none := find_eq_none (c := 93) (by decide) h.host.1
      rw [htext]
      simp only [splitAddress, find_eq_none_iff.mpr h.host.2.1, hclose, AddressText.readPort, hp]
      cases find (bytes "[") t.host with
      | none => rfl
      | some k => cases k <;> rfl

end Split

/-! ### What is asked for, and what is made of the answer -/

/-- The port of an address that has been found, in network order. -/
def resolvedPort (result : SockaddrStorage) : UInt16 :=
  UInt16.ofNat (intOfBytes true (result.slice 2 2))

/-- The answer to the request for the parts of a text. -/
def AddressText.resolve (pl : Platform) (t : AddressText) (f : Family) :
    Except Int SockaddrStorage :=
  pl.getaddrinfo (cStr t.host) (t.scheme.map cStr) (pl.domainOf f)

/-- A port of zero is replaced by the one found. -/
def keptPort (port : UInt16) (result : SockaddrStorage) : UInt16 :=
  if port = 0 then resolvedPort result else port

section Answer

variable {pl : Platform} {t : AddressText}

lemma ntohs_ofBytes {bs : List UInt8} (h : bs.length = 2) :
    pl.ntohs (UInt16.ofNat (intOfBytes pl.bigEndian bs)) = UInt16.ofNat (intOfBytes true bs) := by
  rw [Platform.ntohs, Platform.toNat_ofNat_intOfBytes _ h, intBytes_intOfBytes _ h]

lemma ntohs_port (result : SockaddrStorage) :
    pl.ntohs (UInt16.ofNat (intOfBytes pl.bigEndian (result.slice 2 2))) = resolvedPort result :=
  ntohs_ofBytes (result.length_slice (by decide))

/-- The groups of an IPv6 address are the big-endian ones. -/
lemma swapEndian_words (k : Nat) {bs : List UInt8} (h : bs.length = 2 * k) :
    swapEndian pl (words pl.bigEndian bs) = words true bs := by
  induction k, bs, h using pairs_induction with
  | nil => rfl
  | pair k x y bs h ih =>
    rw [swapEndian] at ih ⊢
    rw [words, words, List.map_cons, ntohs_ofBytes rfl, ih]

/-- A scheme is passed as the service, and none without a scheme. -/
lemma service_eq (h : ∀ s, t.scheme = some s → s ≠ []) :
    (if t.scheme.getD [] ≠ [] then some (cStr (t.scheme.getD [])) else none) =
      t.scheme.map cStr := by
  cases hs : t.scheme with
  | none => rfl
  | some s => simp [h s hs]

lemma IPv4Address.ofString_url (h : t.IsUrl) :
    ofString pl t.url = (t.readPort pl).bind fun port =>
      match t.resolve pl .IPv4 with
      | .error _ => .error (.runtimeError (bytes "Could not get IPv4 address from " ++ t.url))
      | .ok result => .ok {
          m_addr := result.array 4 4 (by decide)
          m_port := keptPort port result
          m_name := t.url } := by
  rw [ofString, splitAddress_url pl h]
  cases t.readPort pl with
  | error e => rfl
  | ok port =>
    simp only [Except.map, Except.bind, ok_bind, service_eq fun s hs => (h.scheme s hs).1,
      ntohs_port, AddressText.resolve, keptPort]
    rfl

lemma AddressText.IsIPv6.scheme_ne_nil (h : t.IsIPv6) : ∀ s, t.scheme = some s → s ≠ [] := by
  intro s hs
  rcases h with ⟨-, h⟩ | h
  · exact (h.scheme s hs).1
  · rw [h.scheme] at hs
    cases hs

lemma IPv6Address.ofString_ipv6 (h : t.IsIPv6) :
    ofString pl t.ipv6 = (t.readPort pl).bind fun port =>
      match t.resolve pl .IPv6 with
      | .error _ => .error (.runtimeError (bytes "Could not get IPv6 address from " ++ t.ipv6))
      | .ok result => .ok {
          m_addr := groupsOfBytes pl (result.array 8 16 (by decide))
          m_port := keptPort port result
          m_flowInfo := UInt32.ofNat (intOfBytes pl.bigEndian (result.slice 4 4))
          m_scopeId := UInt32.ofNat (intOfBytes pl.bigEndian (result.slice 24 4))
          m_name := t.ipv6 } := by
  rw [ofString, splitAddress_ipv6 h]
  cases t.readPort pl with
  | error e => rfl
  | ok port =>
    simp only [Except.map, Except.bind, ok_bind, service_eq h.scheme_ne_nil, ntohs_port,
      AddressText.resolve, keptPort]
    rfl

end Answer

/-! ### Composing and splitting -/

/-- The parts are free of NUL characters, and a port is one that can be used. -/
structure AddressText.Usable (t : AddressText) : Prop where
  scheme : ∀ s, t.scheme = some s → (0 : UInt8) ∉ s
  host : (0 : UInt8) ∉ t.host
  port : ∀ ds, t.port = some ds → 1 ≤ decimal ds ∧ decimal ds ≤ 65535

/-- The address made from a text and the first result of `getaddrinfo`. -/
structure IPv4Address.Found (t : AddressText) (result : SockaddrStorage) (a : IPv4Address) :
    Prop where
  name : a.name = t.url
  addr : a.addr.toList = result.slice 4 4
  written : ∀ ds, t.port = some ds → a.port.toNat = decimal ds
  resolved : t.port = none → a.port = resolvedPort result

structure IPv6Address.Found (pl : Platform) (t : AddressText) (result : SockaddrStorage)
    (a : IPv6Address) : Prop where
  name : a.name = t.ipv6
  addr : a.addr.toList = words true (result.slice 8 16)
  flowInfo : a.flowInfo.toNat = intOfBytes pl.bigEndian (result.slice 4 4)
  scopeId : a.scopeId.toNat = intOfBytes pl.bigEndian (result.slice 24 4)
  written : ∀ ds, t.port = some ds → a.port.toNat = decimal ds
  resolved : t.port = none → a.port = resolvedPort result

section Compose

variable {pl : Platform} {t : AddressText}

lemma AddressText.Usable.resolve (h : t.Usable) (f : Family) :
    t.resolve pl f = pl.getaddrinfo t.host t.scheme (pl.domainOf f) := by
  have hs : t.scheme.map cStr = t.scheme := by
    cases hs : t.scheme with
    | none => rfl
    | some s => rw [Option.map_some, cStr_of_notMem (h.scheme s hs)]
  rw [AddressText.resolve, cStr_of_notMem h.host, hs]

lemma AddressText.readPort_of_port {ds : List UInt8} (h : t.port = some ds) :
    t.readPort pl = (stoul pl ds).map UInt16.ofNat := by
  simp [AddressText.readPort, h]

lemma ulongMax_ge (pl : Platform) : 65535 ≤ pl.ulongMax := by
  unfold Platform.ulongMax
  split <;> omega

/-- A port that is not zero is kept. -/
lemma toNat_keptPort {n : Nat} (hlo : 1 ≤ n) (hhi : n ≤ 65535) (result : SockaddrStorage) :
    (keptPort (UInt16.ofNat n) result).toNat = n := by
  have hval : (UInt16.ofNat n).toNat = n := by
    rw [UInt16.toNat_ofNat']
    omega
  have hne : UInt16.ofNat n ≠ 0 := by
    intro h0
    rw [h0] at hval
    simp only [UInt16.reduceToNat] at hval
    omega
  rw [keptPort, if_neg hne, hval]

variable (pl) in
/-- A usable port is read without loss and not replaced. -/
lemma AddressText.Usable.readPort (h : t.Usable) (hd : ∀ ds, t.port = some ds → Digits ds) :
    ∃ port, t.readPort pl = .ok port ∧ ∀ result,
      (∀ ds, t.port = some ds → (keptPort port result).toNat = decimal ds) ∧
      (t.port = none → keptPort port result = resolvedPort result) := by
  cases hp : t.port with
  | none =>
    refine ⟨0, by simp [AddressText.readPort, hp], fun result => ⟨?_, fun _ => rfl⟩⟩
    intro ds hds
    cases hds
  | some ds =>
    obtain ⟨hlo, hhi⟩ := h.port ds hp
    have hmax := ulongMax_ge pl
    refine ⟨UInt16.ofNat (decimal ds), ?_, fun result => ⟨?_, ?_⟩⟩
    · rw [AddressText.readPort_of_port hp, stoul_digits (hd ds hp), if_neg (by omega)]
      rfl
    · intro ds' hds'
      obtain rfl := Option.some.inj hds'
      exact toNat_keptPort hlo hhi result
    · intro hnone
      cases hnone

lemma AddressText.IsIPv6.port (h : t.IsIPv6) : ∀ ds, t.port = some ds → Digits ds := by
  rcases h with ⟨-, h⟩ | h
  · exact h.port
  · exact h.port

variable (pl) in
/-- On every text of a documented format the constructor asks for exactly the host and the
scheme, and makes the address from the answer. -/
theorem splitting_inverts_composition (t : AddressText) (h : t.Usable) :
    (t.IsUrl →
      (∀ result, pl.getaddrinfo t.host t.scheme (pl.domainOf .IPv4) = .ok result →
        ∃ a, IPv4Address.ofString pl t.url = .ok a ∧ a.Found t result) ∧
      ∀ e, pl.getaddrinfo t.host t.scheme (pl.domainOf .IPv4) = .error e →
        IPv4Address.ofString pl t.url =
          .error (.runtimeError (bytes "Could not get IPv4 address from " ++ t.url))) ∧
    (t.IsIPv6 →
      (∀ result, pl.getaddrinfo t.host t.scheme (pl.domainOf .IPv6) = .ok result →
        ∃ a, IPv6Address.ofString pl t.ipv6 = .ok a ∧ a.Found pl t result) ∧
      ∀ e, pl.getaddrinfo t.host t.scheme (pl.domainOf .IPv6) = .error e →
        IPv6Address.ofString pl t.ipv6 =
          .error (.runtimeError (bytes "Could not get IPv6 address from " ++ t.ipv6))) := by
  constructor
  · intro hu
    obtain ⟨port, hport, hkept⟩ := h.readPort pl hu.port
    rw [IPv4Address.ofString_url hu, hport, h.resolve]
    constructor
    · intro result hr
      rw [hr]
      exact ⟨_, rfl, rfl, rfl, (hkept result).1, (hkept result).2⟩
    · intro e he
      rw [he]
      rfl
  · intro hu
    obtain ⟨port, hport, hkept⟩ := h.readPort pl hu.port
    rw [IPv6Address.ofString_ipv6 hu, hport, h.resolve]
    constructor
    · intro result hr
      have hu32 : ∀ off, off + 4 ≤ 128 →
          (UInt32.ofNat (intOfBytes pl.bigEndian (result.slice off 4))).toNat =
            intOfBytes pl.bigEndian (result.slice off 4) := by
        intro off hoff
        have hlt := intOfBytes_lt pl.bigEndian (result.length_slice hoff)
        rw [UInt32.toNat_ofNat']
        omega
      rw [hr]
      refine ⟨_, rfl, rfl, ?_, hu32 4 (by decide), hu32 24 (by decide), (hkept result).1,
        (hkept result).2⟩
      exact swapEndian_words 8 (result.length_slice (by decide))
    · intro e he
      rw [he]
      rfl

/-- Texts of both classes, and the addresses that the numeric host finds for them. -/
theorem splitting_inverts_composition_linux :
    (∃ a, IPv4Address.ofString linuxHost (bytes "http://1.2.3.4:8080") = .ok a ∧
      a.addr.toList = [1, 2, 3, 4] ∧ a.port.toNat = 8080) ∧
    ∃ a, IPv6Address.ofString linuxHost (bytes "[1:2:3:4:5:6:7:8]:8080") = .ok a ∧
      a.name = bytes "[1:2:3:4:5:6:7:8]:8080" ∧ a.port.toNat = 8080 := by
  have hport : ∀ ds, some (bytes "8080") = some ds → Digits ds ∧ decimal ds = 8080 := by
    intro ds h
    cases h
    exact ⟨Digits.numeral 8080, rfl⟩
  have hrange : ∀ ds, some (bytes "8080") = some ds → 1 ≤ decimal ds ∧ decimal ds ≤ 65535 := by
    intro ds h
    have hval := (hport ds h).2
    omega
  constructor
  · have hscheme : ∀ s, some (bytes "http") = some s →
        s ≠ [] ∧ (58 : UInt8) ∉ s ∧ (0 : UInt8) ∉ s := by
      intro s h
      cases h
      exact ⟨by decide, by decide, by decide⟩
    let t : AddressText := ⟨some (bytes "http"), bytes "1.2.3.4", some (bytes "8080")⟩
    have hu : t.IsUrl :=
      ⟨fun s hs => ⟨(hscheme s hs).1, (hscheme s hs).2.1⟩, ⟨by decide, by decide⟩,
        fun ds h => (hport ds h).1⟩
    have husable : t.Usable := ⟨fun s hs => (hscheme s hs).2.2, by decide, hrange⟩
    obtain ⟨a, ha, hfound⟩ := ((splitting_inverts_composition linuxHost t husable).1 hu).1 _ rfl
    exact ⟨a, ha, hfound.addr, hfound.written _ rfl⟩
  · let t : AddressText := ⟨none, bytes "1:2:3:4:5:6:7:8", some (bytes "8080")⟩
    have hno : find (bytes "://") t.host = none := rfl
    have hliteral : t.IsLiteral :=
      ⟨rfl, ⟨by decide, find_eq_none_iff.mp hno, by decide⟩, fun ds h => (hport ds h).1⟩
    have hscheme : ∀ s, t.scheme = some s → (0 : UInt8) ∉ s := by
      intro s h
      cases h
    have husable : t.Usable := ⟨hscheme, by decide, hrange⟩
    obtain ⟨a, ha, hfound⟩ :=
      ((splitting_inverts_composition linuxHost t husable).2 (Or.inr hliteral)).1 _ rfl
    exact ⟨a, ha, hfound.name, hfound.written _ rfl⟩

end Compose

/-! ### Ports that are written out -/

/-- A port is kept when the host resolves and the port fits, and refused when it does not fit. -/
def HonoursPort (n : Nat) (resolves : Prop) (port : Except Exn UInt16) : Prop :=
  (n ≤ 65535 → resolves → ∃ p, port = .ok p ∧ p.toNat = n) ∧
    (65535 < n → ∃ e, port = .error e)

/-- The condition: the port is from 1 to 65535; or it is zero, and no other port is found for
the host; or it is too large for an `unsigned long`, or the host is not found. -/
def PortKept (pl : Platform) (n : Nat) (answer : Except Int SockaddrStorage) : Prop :=
  1 ≤ n ∧ n ≤ 65535 ∨
  n = 0 ∧ (∀ result, answer = .ok result → resolvedPort result = 0) ∨
  65535 < n ∧ (pl.ulongMax < n ∨ ∃ e, answer = .error e)

section Ports

variable {pl : Platform}

lemma honoursPort_error {n : Nat} {resolves : Prop} (e : Exn) :
    HonoursPort n resolves (.error e) ↔ (n ≤ 65535 → ¬resolves) := by
  constructor
  · intro h hle hresolves
    obtain ⟨p, hp, -⟩ := h.1 hle hresolves
    cases hp
  · intro h
    exact ⟨fun hle hresolves => absurd hresolves (h hle), fun _ => ⟨e, rfl⟩⟩

lemma honoursPort_ok {n : Nat} {resolves : Prop} (hresolves : resolves) (p : UInt16) :
    HonoursPort n resolves (.ok p) ↔ n ≤ 65535 ∧ p.toNat = n := by
  constructor
  · intro h
    have hle : n ≤ 65535 := by
      by_contra hlt
      obtain ⟨e, he⟩ := h.2 (by omega)
      cases he
    obtain ⟨q, hq, hval⟩ := h.1 hle hresolves
    obtain rfl := Except.ok.inj hq
    exact ⟨hle, hval⟩
  · rintro ⟨hle, hval⟩
    exact ⟨fun _ _ => ⟨p, rfl, hval⟩, fun hlt => absurd hle (by omega)⟩

/-- A port that has been read is replaced only when it is zero. -/
lemma portKept_ok_iff {n : Nat} (hfit : ¬pl.ulongMax < n) (result : SockaddrStorage) :
    PortKept pl n (.ok result) ↔
      n ≤ 65535 ∧ (keptPort (UInt16.ofNat n) result).toNat = n := by
  constructor
  · rintro (⟨hlo, hle⟩ | ⟨rfl, hzero⟩ | ⟨-, hmax | ⟨e, he⟩⟩)
    · exact ⟨hle, toNat_keptPort hlo hle result⟩
    · have hkept : keptPort (UInt16.ofNat 0) result = resolvedPort result := rfl
      rw [hkept, hzero result rfl]
      exact ⟨Nat.zero_le _, rfl⟩
    · exact absurd hmax hfit
    · cases he
  · rintro ⟨hle, hval⟩
    by_cases h0 : n = 0
    · subst h0
      refine Or.inr (Or.inl ⟨rfl, fun r hr => ?_⟩)
      obtain rfl := Except.ok.inj hr
      exact UInt16.toNat_inj.mp hval
    · exact Or.inl ⟨by omega, hle⟩

/-- What both constructors do with the digits of a port. -/
lemma honoursPort_iff {ds : List UInt8} (h : Digits ds) (answer : Except Int SockaddrStorage)
    (exn : Exn) :
    HonoursPort (decimal ds) (∃ result, answer = .ok result)
      (((stoul pl ds).map UInt16.ofNat).bind fun port =>
        match answer with
        | .error _ => .error exn
        | .ok result => .ok (keptPort port result)) ↔
      PortKept pl (decimal ds) answer := by
  have hmax := ulongMax_ge pl
  rw [stoul_digits h]
  by_cases hfit : pl.ulongMax < decimal ds
  · rw [if_pos hfit]
    refine iff_of_true ?_ (Or.inr (Or.inr ⟨by omega, Or.inl hfit⟩))
    exact (honoursPort_error _).mpr fun hle => absurd hle (by omega)
  · rw [if_neg hfit]
    cases answer with
    | error e =>
      refine iff_of_true ?_ ?_
      · apply (honoursPort_error _).mpr
        rintro - ⟨result, hr⟩
        cases hr
      · by_cases hle : decimal ds ≤ 65535
        · by_cases h0 : decimal ds = 0
          · refine Or.inr (Or.inl ⟨h0, fun result hr => ?_⟩)
            cases hr
          · exact Or.inl ⟨by omega, hle⟩
        · exact Or.inr (Or.inr ⟨by omega, Or.inr ⟨e, rfl⟩⟩)
    | ok result =>
      exact (honoursPort_ok ⟨result, rfl⟩ _).trans (portKept_ok_iff hfit result).symm

variable (pl) in
/-- A port that is written out is honoured or refused exactly under the condition. -/
theorem written_port_honoured_iff (scheme : Option (List UInt8)) (host ds : List UInt8)
    (hds : Digits ds) :
    ((AddressText.mk scheme host (some ds)).IsUrl →
      (HonoursPort (decimal ds)
          (∃ result, pl.getaddrinfo (cStr host) (scheme.map cStr) (pl.domainOf .IPv4) = .ok result)
          ((IPv4Address.ofString pl (AddressText.mk scheme host (some ds)).url).map
            IPv4Address.port) ↔
        PortKept pl (decimal ds)
          (pl.getaddrinfo (cStr host) (scheme.map cStr) (pl.domainOf .IPv4)))) ∧
    ((AddressText.mk scheme host (some ds)).IsIPv6 →
      (HonoursPort (decimal ds)
          (∃ result, pl.getaddrinfo (cStr host) (scheme.map cStr) (pl.domainOf .IPv6) = .ok result)
          ((IPv6Address.ofString pl (AddressText.mk scheme host (some ds)).ipv6).map
            IPv6Address.port) ↔
        PortKept pl (decimal ds)
          (pl.getaddrinfo (cStr host) (scheme.map cStr) (pl.domainOf .IPv6)))) := by
  constructor
  · intro hu
    rw [← honoursPort_iff hds _ (.runtimeError (bytes "Could not get IPv4 address from " ++
      (AddressText.mk scheme host (some ds)).url)), IPv4Address.ofString_url hu,
      AddressText.readPort_of_port rfl, AddressText.resolve]
    cases stoul pl ds with
    | error e => rfl
    | ok v => cases pl.getaddrinfo (cStr host) (scheme.map cStr) (pl.domainOf .IPv4) <;> rfl
  · intro hu
    rw [← honoursPort_iff hds _ (.runtimeError (bytes "Could not get IPv6 address from " ++
      (AddressText.mk scheme host (some ds)).ipv6)), IPv6Address.ofString_ipv6 hu,
      AddressText.readPort_of_port rfl, AddressText.resolve]
    cases stoul pl ds with
    | error e => rfl
    | ok v => cases pl.getaddrinfo (cStr host) (scheme.map cStr) (pl.domainOf .IPv6) <;> rfl

end Ports

/-- The port of `http://1.2.3.4:0` is the one found for the scheme, and that is not zero. -/
theorem written_port_honoured_iff_linux :
    ¬HonoursPort 0 (∃ result, linuxHost.getaddrinfo (bytes "1.2.3.4") (some (bytes "http")) 2 =
        .ok result)
      ((IPv4Address.ofString linuxHost (bytes "http://1.2.3.4:0")).map IPv4Address.port) := by
  have hds : Digits (bytes "0") := Digits.numeral 0
  have hu : AddressText.IsUrl ⟨some (bytes "http"), bytes "1.2.3.4", some (bytes "0")⟩ := by
    refine ⟨?_, ⟨by decide, by decide⟩, ?_⟩
    · intro s hs
      cases hs
      exact ⟨by decide, by decide⟩
    · intro ds hs
      cases hs
      exact hds
  intro h
  have hiff := (written_port_honoured_iff linuxHost (some (bytes "http")) (bytes "1.2.3.4")
    (bytes "0") hds).1 hu
  rcases hiff.mp h with ⟨hlo, -⟩ | ⟨-, hzero⟩ | ⟨hlt, -⟩
  · exact absurd hlo (by decide)
  · exact absurd (hzero _ rfl) (by decide)
  · exact absurd hlt (by decide)

/-- A port above 65535 is taken modulo 65536. -/
theorem written_port_not_honoured : ¬∀ (t : AddressText) (ds : List UInt8), t.IsUrl →
    t.port = some ds → Digits ds →
    HonoursPort (decimal ds) (∃ result, t.resolve linuxHost .IPv4 = .ok result)
      ((IPv4Address.ofString linuxHost t.url).map IPv4Address.port) := by
  intro h
  have hds : Digits (bytes "65616") := Digits.numeral 65616
  have hu : AddressText.IsUrl ⟨none, bytes "1.2.3.4", some (bytes "65616")⟩ := by
    refine ⟨?_, ⟨by decide, by decide⟩, ?_⟩
    · intro s hs
      cases hs
    · intro ds hs
      cases hs
      exact hds
  obtain ⟨e, he⟩ := (h _ _ hu rfl hds).2 (by decide)
  have hok : (IPv4Address.ofString linuxHost (bytes "1.2.3.4:65616")).map IPv4Address.port =
      .ok 80 := rfl
  have hboth := hok.symm.trans he
  cases hboth

end SockLib
