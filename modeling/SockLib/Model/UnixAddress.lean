import SockLib.Model.IPv4Address

/-!
# Unix addresses

`sockaddr_un` has the family at offset 0 and `sun_path` at offset 2. A pathname, an
abstract name (first byte NUL) and the unnamed address are told apart by the bytes kept.
-/

namespace SockLib

structure UnixAddress where
  m_addr : List UInt8
deriving DecidableEq

namespace UnixAddress

variable (pl : Platform)

def ofString (addrstr : List UInt8) : Except Exn UnixAddress :=
  if pl.sunPathSize < addrstr.length + 1 then
    .error (.runtimeError (bytes "Pathname too long for unix address"))
  else .ok ⟨addrstr⟩

/-- The C structure constructor. It reads from the structure's place in memory, `n` bytes
of which belong to the object; `none` is a read outside of it. -/
def ofSockaddrUn {n : Nat} (addr : Memory n) (len : Nat) : Option UnixAddress := do
  let pathname ← if 2 + 1 < len then (addr.load 2 1).map (fun first => first != [0])
    else some false
  if pathname = true then
    let path ← addr.load 2 (len - 2 - 1)
    pure ⟨path⟩
  else if 2 < len then
    let name ← addr.load 2 (len - 2)
    pure ⟨name⟩
  else pure ⟨[]⟩

/-- The cast to `sockaddr_un`; `none` is a write behind `sun_path`. -/
def toSockaddrUn (a : UnixAddress) (junk : Nat → UInt8) : Option (Memory pl.sockaddrUnSize) := do
  let addr := Memory.uninit pl.sockaddrUnSize junk
  let addr ← addr.store 0 (intBytes pl.bigEndian 2 (pl.domainOf .unix))
  let addr ← addr.store 2 a.m_addr
  addr.store (2 + a.m_addr.length) [0]

def size (a : UnixAddress) : Nat :=
  if a.m_addr.length = 0 then 2
  else if a.m_addr.head? = some 0 then a.m_addr.length + 2
  else 2 + a.m_addr.length + 1

def toSockaddrStorage (a : UnixAddress) (junk junk' : Nat → UInt8) : Option SockaddrStorage := do
  let addrl ← a.toSockaddrUn pl junk
  copyToStorage addrl a.size junk'

def equals (l r : UnixAddress) : Bool := l.m_addr = r.m_addr

/-- The number a `char` stands for when it is compared. -/
def charValue (c : UInt8) : Int :=
  if pl.charSigned ∧ 128 ≤ c.toNat then (c.toNat : Int) - 256 else c.toNat

def less (l r : UnixAddress) : Bool :=
  lexLess (fun x y => decide (charValue pl x < charValue pl y)) l.m_addr r.m_addr

def named (a : UnixAddress) : Bool := 0 < a.m_addr.length && a.m_addr.head? ≠ some 0

def name (a : UnixAddress) : List UInt8 :=
  if a.named then a.m_addr
  else if a.m_addr.length = 0 then bytes "unnamed unix address"
  else bytes "abstract unix address"

end UnixAddress

end SockLib
