import SockLib.Model.Socket

/-!
# Programs that use the library

A program owns sockets and address objects of the three classes, and may call `initialize`
and `deinitialize` itself.
-/

namespace SockLib

/-- What is left of an object that has been moved from: a moved vector is empty, a moved
string holds anything. -/
def AddressObject.movedFrom (rest : List UInt8) : AddressObject → AddressObject
  | .ipv4 a => .ipv4 { a with m_name := rest }
  | .ipv6 a => .ipv6 { a with m_name := rest }
  | .unix _ => .unix ⟨[]⟩

namespace Addresses

variable (pl : Platform)

/-- The copy constructor of an address class. -/
def copyObject (p : Nat) : AddrProg Nat := do
  let o ← object p
  newObject pl (some (.ok o))

/-- The move constructor of an address class; the base class is constructed before the
members are moved. -/
def moveObject (p : Nat) (rest : List UInt8) : AddrProg Nat := do
  let o ← object p
  let q ← newObject pl (some (.ok o))
  Prog.modify fun s => { s with heap := s.heap.put p (o.movedFrom rest) }
  pure q

end Addresses

inductive LibraryOp where
  | socket (op : SocketOp)
  | ofString (f : Family) (addrstr : List UInt8)
  | ofStorage (f : Family) (from_ : SockaddrStorage) (len : Nat)
  | copy (p : Nat)
  | move (p : Nat) (rest : List UInt8)
  | destroy (p : Nat)
  | initializeLibrary
  | deinitializeLibrary

/-- A program with its number of calls of `initialize` that have returned and have not been
made up for by a call of `deinitialize`. -/
structure Application where
  world : World
  balance : Nat

namespace LibraryOp

variable (pl : Platform)

def exec : LibraryOp → SockProg Unit
  | .socket op => op.exec pl
  | .ofString f addrstr =>
    discard (World.addresses (Addresses.newObject pl (some (AddressObject.ofString pl f addrstr))))
  | .ofStorage f st len =>
    discard (World.addresses (Addresses.newObject pl (AddressObject.ofStorage pl f st len)))
  | .copy p => discard (World.addresses (Addresses.copyObject pl p))
  | .move p rest => discard (World.addresses (Addresses.moveObject pl p rest))
  | .destroy p => World.addresses (Addresses.destroyObject pl p)
  | .initializeLibrary => World.library (SockLib.initializeLibrary pl)
  | .deinitializeLibrary => World.library (SockLib.deinitializeLibrary pl)

/-- `deinitialize` is called only to make up for a call of `initialize`. -/
def step (a : Application) : LibraryOp → Option Application
  | .initializeLibrary =>
    match exec pl .initializeLibrary a.world with
    | .ok _ s => some ⟨s, a.balance + 1⟩
    | .throw _ s => some ⟨s, a.balance⟩
    | .fault _ => none
  | .deinitializeLibrary =>
    if a.balance = 0 then none
    else (exec pl .deinitializeLibrary a.world).resume.map (⟨·, a.balance - 1⟩)
  | .socket op => (op.step pl a.world).map (⟨·, a.balance⟩)
  | op => (exec pl op a.world).resume.map (⟨·, a.balance⟩)

end LibraryOp

end SockLib
