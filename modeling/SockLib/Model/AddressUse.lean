import SockLib.Model.Socket

/-!
# Addresses as operands

The const operations of `sks::address`, and the members of `sks::socket` that take an address.
-/

namespace SockLib

inductive AddressUse where
  | toSockaddrStorage (fr : Frame) (x : Nat)
  | size (x : Nat)
  | castTo (f : Family) (x : Nat)
  | equals (x y : Nat)
  | notEquals (x y : Nat)
  | less (x y : Nat)
  | addressDomain (x : Nat)
  | name (x : Nat)
  | bind (z : Nat) (fr : Frame) (x : Nat) (answer : Except Int Unit)
  | connect (z : Nat) (fr : Frame) (x : Nat) (answer : Except Int Unit)
  | send (z : Nat) (data : List UInt8) (fr : Frame) (x flags : Nat)
      (answers : List (Except Int Nat))

def AddressUse.exec (pl : Platform) : AddressUse → SockProg Unit
  | .toSockaddrStorage fr x =>
    discard (World.addresses (Addresses.toSockaddrStorage pl fr x))
  | .size x => discard (World.addresses (Addresses.size x))
  | .castTo f x => discard (World.addresses (Addresses.castTo pl f x))
  | .equals x y => discard (World.addresses (Addresses.equals pl x y))
  | .notEquals x y => discard (World.addresses (Addresses.notEquals pl x y))
  | .less x y => discard (World.addresses (Addresses.less pl x y))
  | .addressDomain x => discard (World.addresses (Addresses.addressDomain x))
  | .name x => discard (World.addresses (Addresses.name x))
  | .bind z fr x answer => World.bindAddress pl z fr x answer
  | .connect z fr x answer => World.connectAddress pl z fr x answer
  | .send z data fr x flags answers => World.sendAddress pl z data fr x flags answers

/-- What a program does with its addresses: it makes, changes and destroys them, and uses them. -/
inductive OperandOp where
  | build (op : AddressOp)
  | use (u : AddressUse)

namespace OperandOp

variable (pl : Platform)

def exec : OperandOp → SockProg Unit
  | .build op => World.addresses (op.exec pl)
  | .use u => u.exec pl

/-- The state the program goes on from; an exception is caught by the caller. -/
def step (s : World) (op : OperandOp) : Option World := (op.exec pl s).resume

end OperandOp

end SockLib
