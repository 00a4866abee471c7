import SockLib.Foundation.Memory
import SockLib.Foundation.Numeral
import Mathlib.Data.List.TakeWhile

/-!
# The platform

What the library finds outside its own code: the build it is compiled in, the byte order
and character type of the host, and the system functions it calls for names. Everything
proved holds for every platform unless a hypothesis says otherwise.
-/

namespace SockLib

abbrev SockaddrIn := Memory 16

abbrev SockaddrIn6 := Memory 28

abbrev SockaddrStorage := Memory 128

structure Platform where
  /-- The Windows build (`__SKS_AS_WINDOWS__`); otherwise the POSIX one. -/
  windows : Bool
  bigEndian : Bool
  charSigned : Bool
  /-- The text for an address in network order, or `errno`. -/
  inet_ntop : Nat → List UInt8 → Except Int (List UInt8)
  /-- `ai_addr` of the first result for a node, a service and a family, or an error code. -/
  getaddrinfo : List UInt8 → Option (List UInt8) → Nat → Except Int SockaddrStorage
  /-- Result of the `k`th call. -/
  WSAStartup : Nat → Int
  WSACleanup : Nat → Int

/-- The address families that have a class of their own. -/
inductive Family where
  | unix
  | IPv4
  | IPv6
deriving DecidableEq, Repr

namespace Platform

variable (pl : Platform)

def AF_INET6 : Nat := if pl.windows then 23 else 10

/-- The value of an enumerator of `sks::domain`. -/
def domainOf : Family → Nat
  | .unix => 1
  | .IPv4 => 2
  | .IPv6 => pl.AF_INET6

/-- The case a `switch` over a domain takes; `none` is the default. -/
def familyOf (d : Nat) : Option Family :=
  if d = 2 then some .IPv4
  else if d = pl.AF_INET6 then some .IPv6
  else if d = 1 then some .unix
  else none

/-- `MSG_NOSIGNAL`; Windows does not have it. -/
def MSG_NOSIGNAL : Nat := if pl.windows then 0 else 0x4000

/-- `sizeof(sockaddr_un::sun_path)`. -/
def sunPathSize : Nat := if pl.windows then 180 else 108

/-- `sizeof(sockaddr_un)`, with `sun_path` at offset 2. -/
def sockaddrUnSize : Nat := 2 + pl.sunPathSize

def ulongMax : Nat := if pl.windows then 2 ^ 32 - 1 else 2 ^ 64 - 1

/-- The number of bytes that `::send` and `::recv` work on when they are called with the size
`n`. WinSock takes it as an `int`, and a negative one means no bytes. -/
def callLength (n : Nat) : Nat := if pl.windows then (Int32.ofNat n).toNatClampNeg else n

lemma AF_INET6_cases : pl.AF_INET6 = 23 ∨ pl.AF_INET6 = 10 := by
  unfold AF_INET6
  split <;> simp

lemma callLength_windows (hw : pl.windows = true) (n : Nat) :
    pl.callLength n = if n % 2 ^ 32 < 2 ^ 31 then n % 2 ^ 32 else 0 := by
  rw [callLength, if_pos hw, Int32.toNatClampNeg, Int32.toInt_ofNat', Int.bmod_def, Int32.size]
  split <;> split <;> omega

lemma callLength_posix (hw : pl.windows = false) (n : Nat) : pl.callLength n = n := by
  rw [callLength, hw]
  rfl

lemma callLength_le (n : Nat) : pl.callLength n ≤ n := by
  cases hw : pl.windows with
  | false => exact (pl.callLength_posix hw n).le
  | true =>
    rw [pl.callLength_windows hw]
    split <;> omega

/-- A size arrives as it is unless it does not fit. -/
lemma callLength_eq_self_iff (n : Nat) :
    pl.callLength n = n ↔ pl.windows = false ∨ n < 2 ^ 31 := by
  cases hw : pl.windows with
  | false =>
    have hn := pl.callLength_posix hw n
    exact ⟨fun _ => .inl rfl, fun _ => hn⟩
  | true =>
    rw [pl.callLength_windows hw]
    constructor
    · intro h
      right
      split at h <;> omega
    · rintro (h | h)
      · cases h
      · rw [if_pos (by omega)]
        omega

/-- What does not fit stays too much, however often `::send` is called. -/
lemma callLength_rest (hw : pl.windows = true) {n : Nat} (h : 2 ^ 31 ≤ n) :
    2 ^ 31 ≤ n - pl.callLength n := by
  rw [pl.callLength_windows hw]
  split <;> omega

@[simp] lemma familyOf_domainOf (f : Family) : pl.familyOf (pl.domainOf f) = some f := by
  have h6 := pl.AF_INET6_cases
  cases f
  · have hne : ¬1 = pl.AF_INET6 := by omega
    simp [familyOf, domainOf, hne]
  · rfl
  · have hne : ¬pl.AF_INET6 = 2 := by omega
    simp [familyOf, domainOf, hne]

lemma domainOf_of_familyOf {d : Nat} {f : Family} (h : pl.familyOf d = some f) :
    pl.domainOf f = d := by
  unfold familyOf at h
  split at h
  · cases h
    exact (‹d = 2›).symm
  · split at h
    · cases h
      exact (‹d = pl.AF_INET6›).symm
    · split at h
      · cases h
        exact (‹d = 1›).symm
      · cases h

lemma familyOf_eq_some {d : Nat} {f : Family} : pl.familyOf d = some f ↔ d = pl.domainOf f :=
  ⟨fun h => (pl.domainOf_of_familyOf h).symm, fun h => h ▸ pl.familyOf_domainOf f⟩

lemma domainOf_inj {f g : Family} (h : pl.domainOf f = pl.domainOf g) : f = g := by
  have hf := pl.familyOf_domainOf f
  rw [h, familyOf_domainOf] at hf
  exact (Option.some.inj hf).symm

lemma domainOf_lt (f : Family) : pl.domainOf f < 256 ^ 2 := by
  have h6 := pl.AF_INET6_cases
  cases f <;> simp only [domainOf] <;> omega

/-! ### Byte order conversions -/

/-- `ntohs`: the bytes of a host integer, read as a big-endian number. -/
def ntohs (v : UInt16) : UInt16 := UInt16.ofNat (intOfBytes true (intBytes pl.bigEndian 2 v.toNat))

/-- `htons`: the host integer whose bytes are the big-endian ones. -/
def htons (v : UInt16) : UInt16 := UInt16.ofNat (intOfBytes pl.bigEndian (intBytes true 2 v.toNat))

lemma toNat_ofNat_intOfBytes (big : Bool) {bs : List UInt8} (h : bs.length = 2) :
    (UInt16.ofNat (intOfBytes big bs)).toNat = intOfBytes big bs := by
  have hlt := intOfBytes_lt big h
  rw [UInt16.toNat_ofNat']
  omega

lemma ofNat_intOfBytes_intBytes (big : Bool) (v : UInt16) :
    UInt16.ofNat (intOfBytes big (intBytes big 2 v.toNat)) = v := by
  rw [intOfBytes_intBytes big v.toNat_lt, UInt16.ofNat_toNat]

@[simp] lemma ntohs_htons (v : UInt16) : pl.ntohs (pl.htons v) = v := by
  rw [ntohs, htons, toNat_ofNat_intOfBytes _ (length_intBytes _ _ _),
    intBytes_intOfBytes _ (length_intBytes _ _ _), ofNat_intOfBytes_intBytes]

@[simp] lemma htons_ntohs (v : UInt16) : pl.htons (pl.ntohs v) = v := by
  rw [ntohs, htons, toNat_ofNat_intOfBytes _ (length_intBytes _ _ _),
    intBytes_intOfBytes _ (length_intBytes _ _ _), ofNat_intOfBytes_intBytes]

/-- Swapping the two bytes, or keeping them, is its own inverse. -/
lemma ntohs_eq_htons (v : UInt16) : pl.ntohs v = pl.htons v := by
  unfold ntohs htons
  cases pl.bigEndian
  · simp [intOfBytes, intBytes]
  · rfl

@[simp] lemma ntohs_ntohs (v : UInt16) : pl.ntohs (pl.ntohs v) = v := by
  rw [ntohs_eq_htons, htons_ntohs]

end Platform

/-- `ss_family`, at the start of every C address. -/
def ssFamily (pl : Platform) (s : SockaddrStorage) : Nat :=
  intOfBytes pl.bigEndian (s.slice 0 2)

/-! ### Errors -/

/-- The category of a `std::error_code`. -/
inductive ErrorCategory where
  | generic
  | system
deriving DecidableEq, Repr

/-- What the library throws. -/
inductive Exn where
  | runtimeError (what : List UInt8)
  | systemError (category : ErrorCategory) (code : Int)
  | invalidArgument (what : List UInt8)
  | outOfRange (what : List UInt8)
deriving DecidableEq, Repr

/-- Undefined behaviour, the end of the program through `std::terminate`, and executions
that do not exist. -/
inductive Fault where
  | nullPointer
  | danglingPointer
  | doubleDelete
  | outOfBounds
  | typeConfusion
  | signedOverflow
  | terminate
  /-- The system has been made to answer as it never does; there is no such execution. -/
  | noSuchAnswer
deriving DecidableEq, Repr

/-- Windows error codes are `errno` values plus 10000 in a part of their range. -/
def sysErr (pl : Platform) (code : Int) : Exn :=
  if pl.windows then
    if 10000 < code ∧ code ≤ 10061 then .systemError .generic (code - 10000)
    else .systemError .system code
  else .systemError .generic code

def EFAULT : Int := 14

def EINVAL : Int := 22

/-- The characters of a C string: those before the first NUL. -/
def cStr (s : List UInt8) : List UInt8 := s.takeWhile (· ≠ 0)

lemma zero_notMem_cStr (s : List UInt8) : (0 : UInt8) ∉ cStr s := by
  intro h
  have hp := List.mem_takeWhile_imp h
  exact absurd hp (by decide)

lemma cStr_of_notMem {s : List UInt8} (h : (0 : UInt8) ∉ s) : cStr s = s := by
  rw [cStr, List.takeWhile_eq_self_iff]
  intro c hc
  simp only [decide_eq_true_eq]
  exact fun h0 => h (h0 ▸ hc)

end SockLib
