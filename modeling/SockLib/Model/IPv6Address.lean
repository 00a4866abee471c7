import SockLib.Model.IPv4Address

/-!
# IPv6 addresses

`sockaddr_in6` has the family at offset 0, the port at 2, the flow information at 4, the
address at 8 and the scope at 24. The class keeps the address as eight host integers.
-/

namespace SockLib

/-- The loop over an array of sixteen-bit integers that swaps each one on a little-endian host. -/
def swapEndian (pl : Platform) (first : List UInt16) : List UInt16 := first.map pl.ntohs

@[simp] lemma swapEndian_swapEndian (pl : Platform) (ws : List UInt16) :
    swapEndian pl (swapEndian pl ws) = ws := by
  simp [swapEndian, Function.comp_def]

/-- Eight groups from sixteen bytes of network order. -/
def groupsOfBytes (pl : Platform) (bs : Memory 16) : List.Vector UInt16 8 :=
  ⟨swapEndian pl (words pl.bigEndian bs.toList), by
    rw [swapEndian, List.length_map, length_words _ 8 (by simp)]⟩

structure IPv6Address where
  m_addr : List.Vector UInt16 8
  m_port : UInt16
  m_flowInfo : UInt32
  m_scopeId : UInt32
  m_name : List UInt8
deriving DecidableEq

namespace IPv6Address

variable (pl : Platform)

/-- The node, the scheme and the port of an address string. A port is looked for after a
scheme or after a bracketed address; it is narrowed to sixteen bits. -/
def splitAddress (addrstr : List UInt8) : Except Exn (List UInt8 × List UInt8 × UInt16) :=
  let obIndex := find (bytes "[") addrstr
  let cbIndex := find (bytes "]:") addrstr
  match find (bytes "://") addrstr with
  | some delimIndex =>
    let as := addrstr.drop (delimIndex + 3)
    let scheme := addrstr.take delimIndex
    match find (bytes ":") as with
    | some colonIndex => do
      let port ← stoul pl (as.drop (colonIndex + 1))
      pure (as.take colonIndex, scheme, UInt16.ofNat port)
    | none => pure (as, scheme, 0)
  | none =>
    match obIndex, cbIndex with
    | some 0, some (cb + 1) => do
      let as := (addrstr.take (cb + 1)).drop 1
      let port ← stoul pl (addrstr.drop (cb + 1 + 2))
      pure (as, [], UInt16.ofNat port)
    | _, _ => pure (addrstr, [], 0)

/-- The string constructor. A port of zero counts as not given. -/
def ofString (addrstr : List UInt8) : Except Exn IPv6Address := do
  let (as, scheme, m_port) ← splitAddress pl addrstr
  let service := if scheme ≠ [] then some (cStr scheme) else none
  match pl.getaddrinfo (cStr as) service (pl.domainOf .IPv6) with
  | .error _ => .error (.runtimeError (bytes "Could not get IPv6 address from " ++ addrstr))
  | .ok result =>
    let sin6_port := UInt16.ofNat (intOfBytes pl.bigEndian (result.slice 2 2))
    pure {
      m_addr := groupsOfBytes pl (result.array 8 16 (by decide))
      m_port := if m_port = 0 then pl.ntohs sin6_port else m_port
      m_flowInfo := UInt32.ofNat (intOfBytes pl.bigEndian (result.slice 4 4))
      m_scopeId := UInt32.ofNat (intOfBytes pl.bigEndian (result.slice 24 4))
      m_name := addrstr }

/-- The any address with a port. -/
def ofPort (port : UInt16) : Except Exn IPv6Address :=
  ofString pl (bytes "[::]:" ++ numeral 10 port.toNat)

def ofSockaddrIn6 (addr : SockaddrIn6) : Except Exn IPv6Address :=
  let sin6_addr := addr.array 8 16 (by decide)
  let m_port := pl.ntohs (UInt16.ofNat (intOfBytes pl.bigEndian (addr.slice 2 2)))
  match pl.inet_ntop (pl.domainOf .IPv6) sin6_addr.toList with
  | .error errno => .error (sysErr pl errno)
  | .ok r => .ok {
      m_addr := groupsOfBytes pl sin6_addr
      m_port
      m_flowInfo := UInt32.ofNat (intOfBytes pl.bigEndian (addr.slice 4 4))
      m_scopeId := UInt32.ofNat (intOfBytes pl.bigEndian (addr.slice 24 4))
      m_name := bytes "[" ++ cStr r ++ bytes "]:" ++ numeral 10 m_port.toNat }

/-- The cast to `sockaddr_in6`; `junk` is what the local structure held before. -/
def toSockaddrIn6 (a : IPv6Address) (junk : Nat → UInt8) : Option SockaddrIn6 := do
  let addr := Memory.uninit 28 junk
  let addr ← addr.store 0 (intBytes pl.bigEndian 2 (pl.domainOf .IPv6))
  let addr ← addr.store 8 (wordBytes pl.bigEndian a.m_addr.toList)
  let addr ← addr.store 8
    (wordBytes pl.bigEndian (swapEndian pl (words pl.bigEndian (addr.slice 8 16))))
  let addr ← addr.store 2 (intBytes pl.bigEndian 2 (pl.htons a.m_port).toNat)
  let addr ← addr.store 4 (intBytes pl.bigEndian 4 a.m_flowInfo.toNat)
  addr.store 24 (intBytes pl.bigEndian 4 a.m_scopeId.toNat)

def size (_ : IPv6Address) : Nat := 28

def toSockaddrStorage (a : IPv6Address) (junk junk' : Nat → UInt8) : Option SockaddrStorage := do
  let addrl ← a.toSockaddrIn6 pl junk
  copyToStorage addrl a.size junk'

def equals (l r : IPv6Address) : Bool := l.m_addr = r.m_addr && l.m_port = r.m_port

def less (l r : IPv6Address) : Bool :=
  if l.m_addr ≠ r.m_addr then
    lexLess (fun x y => decide (x < y)) l.m_addr.toList r.m_addr.toList
  else l.m_port < r.m_port

def addr (a : IPv6Address) : List.Vector UInt16 8 := a.m_addr

def port (a : IPv6Address) : UInt16 := a.m_port

def flowInfo (a : IPv6Address) : UInt32 := a.m_flowInfo

def scopeId (a : IPv6Address) : UInt32 := a.m_scopeId

def name (a : IPv6Address) : List UInt8 := a.m_name

end IPv6Address

end SockLib
