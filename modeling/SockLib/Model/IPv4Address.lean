import SockLib.Foundation.Lexicographic
import SockLib.Foundation.Text
import SockLib.Model.Platform

/-!
# IPv4 addresses

`sockaddr_in` has the family at offset 0, the port at 2, the address at 4 and the padding
`sin_zero` at 8.
-/

namespace SockLib

/-- `std::stoul` in base ten: white space, a sign, then as many digits as there are. -/
def stoul (pl : Platform) (s : List UInt8) : Except Exn Nat :=
  let s := s.dropWhile (fun c => c = 32 ∨ (9 ≤ c ∧ c ≤ 13))
  let negative := s.head? = some 45
  let s := if s.head? = some 45 ∨ s.head? = some 43 then s.tail else s
  let digits := s.takeWhile (isDigit 10)
  let v := numeralValue 10 0 digits
  if digits = [] then .error (.invalidArgument (bytes "stoul"))
  else if pl.ulongMax < v then .error (.outOfRange (bytes "stoul"))
  else if negative then .ok ((pl.ulongMax + 1 - v) % (pl.ulongMax + 1))
  else .ok v

/-- Copy the first `size` bytes of a C structure into a `sockaddr_storage` whose other
bytes are not written. -/
def copyToStorage {n : Nat} (struct : Memory n) (size : Nat) (junk : Nat → UInt8) :
    Option SockaddrStorage := do
  let src ← struct.load 0 size
  (Memory.uninit 128 junk).store 0 src

structure IPv4Address where
  m_addr : Memory 4
  m_port : UInt16
  m_name : List UInt8
deriving DecidableEq

namespace IPv4Address

variable (pl : Platform)

/-- The node, the scheme and the port of an address string. The port is narrowed to sixteen
bits; without one it stays zero. -/
def splitAddress (addrstr : List UInt8) : Except Exn (List UInt8 × List UInt8 × UInt16) :=
  let (as, scheme) := match find (bytes "://") addrstr with
    | some delimIndex => (addrstr.drop (delimIndex + 3), addrstr.take delimIndex)
    | none => (addrstr, [])
  match find (bytes ":") as with
  | some colonIndex => do
    let port ← stoul pl (as.drop (colonIndex + 1))
    pure (as.take colonIndex, scheme, UInt16.ofNat port)
  | none => pure (as, scheme, 0)

/-- The string constructor. A port of zero counts as not given. -/
def ofString (addrstr : List UInt8) : Except Exn IPv4Address := do
  let (as, scheme, m_port) ← splitAddress pl addrstr
  let service := if scheme ≠ [] then some (cStr scheme) else none
  match pl.getaddrinfo (cStr as) service (pl.domainOf .IPv4) with
  | .error _ => .error (.runtimeError (bytes "Could not get IPv4 address from " ++ addrstr))
  | .ok result =>
    let sin_port := UInt16.ofNat (intOfBytes pl.bigEndian (result.slice 2 2))
    pure {
      m_addr := result.array 4 4 (by decide)
      m_port := if m_port = 0 then pl.ntohs sin_port else m_port
      m_name := addrstr }

/-- The any address with a port. -/
def ofPort (port : UInt16) : Except Exn IPv4Address :=
  ofString pl (bytes "0.0.0.0:" ++ numeral 10 port.toNat)

def ofSockaddrIn (addr : SockaddrIn) : Except Exn IPv4Address :=
  let m_addr := addr.array 4 4 (by decide)
  let m_port := pl.ntohs (UInt16.ofNat (intOfBytes pl.bigEndian (addr.slice 2 2)))
  match pl.inet_ntop (pl.domainOf .IPv4) m_addr.toList with
  | .error errno => .error (sysErr pl errno)
  | .ok r => .ok { m_addr, m_port, m_name := cStr r ++ bytes ":" ++ numeral 10 m_port.toNat }

/-- The cast to `sockaddr_in`; `junk` is what the local structure held before. -/
def toSockaddrIn (a : IPv4Address) (junk : Nat → UInt8) : Option SockaddrIn := do
  let addr := Memory.uninit 16 junk
  let addr ← addr.store 0 (intBytes pl.bigEndian 2 (pl.domainOf .IPv4))
  let addr ← addr.store 4 a.m_addr.toList
  let addr ← addr.store 2 (intBytes pl.bigEndian 2 (pl.htons a.m_port).toNat)
  addr.store 8 (List.replicate 8 0)

def size (_ : IPv4Address) : Nat := 16

def toSockaddrStorage (a : IPv4Address) (junk junk' : Nat → UInt8) : Option SockaddrStorage := do
  let addrl ← a.toSockaddrIn pl junk
  copyToStorage addrl a.size junk'

def equals (l r : IPv4Address) : Bool := l.m_addr = r.m_addr && l.m_port = r.m_port

def less (l r : IPv4Address) : Bool :=
  if l.m_addr ≠ r.m_addr then
    lexLess (fun x y => decide (x < y)) l.m_addr.toList r.m_addr.toList
  else l.m_port < r.m_port

def addr (a : IPv4Address) : Memory 4 := a.m_addr

def port (a : IPv4Address) : UInt16 := a.m_port

def name (a : IPv4Address) : List UInt8 := a.m_name

end IPv4Address

end SockLib
