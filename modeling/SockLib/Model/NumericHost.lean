import SockLib.Model.Platform

/-!
# A host that resolves numeric addresses

`numericHost` is a platform whose name functions handle numeric addresses only: dotted
quads, eight groups of hexadecimal digits without abbreviation, and the service `http`.
It shows that the assumptions made about the system functions can be met.
-/

namespace SockLib

/-- Numbers separated by a letter that is no digit. -/
def joinNumerals (b : Nat) (sep : UInt8) (ns : List Nat) : List UInt8 :=
  [sep].intercalate (ns.map (numeral b))

/-- Read back numbers separated by a letter: every part is a non-empty run of digits of a
number below the bound. -/
def splitNumerals (b bound : Nat) (sep : UInt8) (text : List UInt8) : Option (List Nat) :=
  (text.splitOn sep).mapM fun part =>
    if part ≠ [] ∧ part.all (isDigit b) = true ∧ numeralValue b 0 part < bound then
      some (numeralValue b 0 part)
    else none

lemma splitNumerals_joinNumerals {b bound : Nat} (hb : 1 < b) (h16 : b ≤ 16) {sep : UInt8}
    (hsep : isDigit b sep = false) {ns : List Nat} (hne : ns ≠ []) (hns : ∀ n ∈ ns, n < bound) :
    splitNumerals b bound sep (joinNumerals b sep ns) = some ns := by
  have hparts : ∀ l ∈ ns.map (numeral b), sep ∉ l := by
    intro l hl
    obtain ⟨n, -, rfl⟩ := List.mem_map.mp hl
    exact notMem_numeral hb h16 hsep n
  rw [splitNumerals, joinNumerals, List.splitOn_intercalate sep hparts (by simpa using hne)]
  clear hne hparts
  induction ns with
  | nil => rfl
  | cons n ns ih =>
    have hall : (numeral b n).all (isDigit b) = true :=
      List.all_eq_true.mpr (fun c hc => isDigit_of_mem_numeral hb h16 hc)
    have hlt : numeralValue b 0 (numeral b n) < bound := by
      rw [numeralValue_numeral hb h16]
      exact hns n List.mem_cons_self
    rw [List.map_cons, List.mapM_cons, ih (fun m hm => hns m (List.mem_cons_of_mem n hm)),
      if_pos ⟨numeral_ne_nil b n, hall, hlt⟩, numeralValue_numeral hb h16]
    rfl

/-- A letter that is neither a digit nor the separator does not occur. -/
lemma notMem_joinNumerals {b : Nat} (hb : 1 < b) (h16 : b ≤ 16) {sep c : UInt8}
    (hc : isDigit b c = false) (hcs : c ≠ sep) (ns : List Nat) : c ∉ joinNumerals b sep ns := by
  induction ns with
  | nil => simp [joinNumerals, List.intercalate]
  | cons n ns ih =>
    have hn : c ∉ numeral b n := notMem_numeral hb h16 hc n
    cases ns with
    | nil => simpa [joinNumerals, List.intercalate] using hn
    | cons m ns =>
      have hcons : joinNumerals b sep (n :: m :: ns) =
          numeral b n ++ sep :: joinNumerals b sep (m :: ns) := by
        simp [joinNumerals, List.intercalate]
      rw [hcons, List.mem_append, List.mem_cons]
      exact fun h => h.elim hn (fun h => h.elim hcs ih)

def dottedQuad (bs : List UInt8) : List UInt8 := joinNumerals 10 46 (bs.map UInt8.toNat)

def hexGroups (bs : List UInt8) : List UInt8 :=
  joinNumerals 16 58 ((words true bs).map UInt16.toNat)

def readDottedQuad (text : List UInt8) : Option (List UInt8) := do
  let ns ← splitNumerals 10 256 46 text
  if ns.length = 4 then some (ns.map UInt8.ofNat) else none

def readHexGroups (text : List UInt8) : Option (List UInt8) := do
  let ns ← splitNumerals 16 65536 58 text
  if ns.length = 8 then some (wordBytes true (ns.map UInt16.ofNat)) else none

lemma readDottedQuad_dottedQuad {bs : List UInt8} (h : bs.length = 4) :
    readDottedQuad (dottedQuad bs) = some bs := by
  have hne : bs.map UInt8.toNat ≠ [] := by
    intro hnil
    rw [List.map_eq_nil_iff.mp hnil] at h
    cases h
  have hlt : ∀ n ∈ bs.map UInt8.toNat, n < 256 := by
    intro n hn
    obtain ⟨c, -, rfl⟩ := List.mem_map.mp hn
    exact c.toNat_lt
  rw [readDottedQuad, dottedQuad,
    splitNumerals_joinNumerals (by decide) (by decide) (by decide) hne hlt]
  simp [h, Function.comp_def]

lemma readHexGroups_hexGroups {bs : List UInt8} (h : bs.length = 16) :
    readHexGroups (hexGroups bs) = some bs := by
  have hlen := length_words true 8 h
  have hne : (words true bs).map UInt16.toNat ≠ [] := by
    intro hnil
    rw [List.map_eq_nil_iff.mp hnil] at hlen
    cases hlen
  have hlt : ∀ n ∈ (words true bs).map UInt16.toNat, n < 65536 := by
    intro n hn
    obtain ⟨c, -, rfl⟩ := List.mem_map.mp hn
    exact c.toNat_lt
  rw [readHexGroups, hexGroups,
    splitNumerals_joinNumerals (by decide) (by decide) (by decide) hne hlt]
  simp [hlen, Function.comp_def, wordBytes_words true 8 h]

/-- A dotted quad with a port has too few groups for an IPv6 literal. -/
lemma readHexGroups_dottedQuad (bs : List UInt8) (n : Nat) :
    readHexGroups (dottedQuad bs ++ bytes ":" ++ numeral 10 n) = none := by
  have hquad : (58 : UInt8) ∉ dottedQuad bs :=
    notMem_joinNumerals (by decide) (by decide) (by decide) (by decide) _
  have hnum : (58 : UInt8) ∉ numeral 10 n :=
    notMem_numeral (by decide) (by decide) (by decide) n
  have htext : dottedQuad bs ++ bytes ":" ++ numeral 10 n =
      [58].intercalate [dottedQuad bs, numeral 10 n] := by
    simp [List.intercalate, bytes, charByte]
  have hsplit : List.splitOn 58 (dottedQuad bs ++ bytes ":" ++ numeral 10 n) =
      [dottedQuad bs, numeral 10 n] := by
    rw [htext]
    refine List.splitOn_intercalate 58 (fun l hl => ?_) (by simp)
    rcases List.mem_pair.mp hl with rfl | rfl
    exacts [hquad, hnum]
  rw [readHexGroups, splitNumerals, hsplit, List.mapM_cons, List.mapM_cons, List.mapM_nil]
  split <;> split <;> simp

/-- A `sockaddr` with the given family, port and address, and zeros elsewhere. -/
def inetStorage (bigEndian : Bool) (family port off : Nat) (addr : List UInt8) :
    Option SockaddrStorage := do
  let m := Memory.uninit 128 (fun _ => 0)
  let m ← m.store 0 (intBytes bigEndian 2 family)
  let m ← m.store 2 (intBytes true 2 port)
  m.store off addr

lemma inetStorage_some (big : Bool) (family port : Nat) {off : Nat} {addr : List UInt8}
    (hoff : 4 ≤ off) (hlen : off + addr.length ≤ 128) :
    ∃ st, inetStorage big family port off addr = some st ∧ st.slice off addr.length = addr ∧
      st.slice 2 2 = intBytes true 2 port := by
  have hfam : 0 + (intBytes big 2 family).length ≤ 128 := by simp
  have hport : 2 + (intBytes true 2 port).length ≤ 128 := by simp
  obtain ⟨m1, h1⟩ := (Memory.uninit 128 (fun _ => 0)).exists_store hfam
  obtain ⟨m2, h2⟩ := m1.exists_store hport
  obtain ⟨m3, h3⟩ := m2.exists_store hlen
  refine ⟨m3, by simp [inetStorage, h1, h2, h3], Memory.slice_store_self h3 rfl, ?_⟩
  rw [Memory.slice_store_before h3 (by omega), Memory.slice_store_self h2 (by simp)]

def servicePort (service : Option (List UInt8)) : Option Nat :=
  match service with
  | none => some 0
  | some s => if s = bytes "http" then some 80 else none

/-- `EAI_NONAME`. -/
def eaiNoname : Int := -2

def numericHost (windows bigEndian charSigned : Bool) : Platform where
  windows := windows
  bigEndian := bigEndian
  charSigned := charSigned
  inet_ntop family bs := .ok (if family = 2 then dottedQuad bs else hexGroups bs)
  getaddrinfo node service family :=
    let result := do
      let port ← servicePort service
      if family = 2 then
        let bs ← readDottedQuad node
        inetStorage bigEndian family port 4 bs
      else
        let bs ← readHexGroups node
        inetStorage bigEndian family port 8 bs
    result.elim (.error eaiNoname) .ok
  WSAStartup _ := 0
  WSACleanup _ := 0

lemma getaddrinfo_numericHost (w b c : Bool) (node : List UInt8) {family : Nat}
    (h : family ≠ 2) :
    (numericHost w b c).getaddrinfo node none family =
      ((readHexGroups node).bind (inetStorage b family 0 8)).elim (.error eaiNoname) .ok := by
  simp [numericHost, servicePort, h]

/-- A little-endian POSIX host with signed characters. -/
def linuxHost : Platform := numericHost false false true

end SockLib
