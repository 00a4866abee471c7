import SockLib.Foundation.Store
import SockLib.Model.Initialization
import SockLib.Model.IPv6Address
import SockLib.Model.UnixAddress

/-!
# The generic address class

`sks::address` pairs a domain with a raw pointer to an object of one of the three address
classes. The state holds the library counter, the live objects of these classes and the
live `sks::address` objects; pointers and objects are named by their identity, which stays
invalid once the object is gone.
-/

namespace SockLib

/-- An object of a class derived from `addressBase`. -/
inductive AddressObject where
  | ipv4 (a : IPv4Address)
  | ipv6 (a : IPv6Address)
  | unix (a : UnixAddress)
deriving DecidableEq

/-- What the locals of a cast hold before they are written. -/
structure Frame where
  struct : Nat → UInt8
  storage : Nat → UInt8

namespace AddressObject

variable (pl : Platform)

def family : AddressObject → Family
  | .ipv4 _ => .IPv4
  | .ipv6 _ => .IPv6
  | .unix _ => .unix

def toSockaddrStorage (o : AddressObject) (fr : Frame) : Option SockaddrStorage :=
  match o with
  | .ipv4 a => a.toSockaddrStorage pl fr.struct fr.storage
  | .ipv6 a => a.toSockaddrStorage pl fr.struct fr.storage
  | .unix a => a.toSockaddrStorage pl fr.struct fr.storage

def size : AddressObject → Nat
  | .ipv4 a => a.size
  | .ipv6 a => a.size
  | .unix a => a.size

def name : AddressObject → List UInt8
  | .ipv4 a => a.name
  | .ipv6 a => a.name
  | .unix a => a.name

/-- `operator==` of the class of a family; `none` where an operand is of another class. -/
def equals (f : Family) (l r : AddressObject) : Option Bool :=
  match f, l, r with
  | .IPv4, .ipv4 l, .ipv4 r => some (l.equals r)
  | .IPv6, .ipv6 l, .ipv6 r => some (l.equals r)
  | .unix, .unix l, .unix r => some (l.equals r)
  | _, _, _ => none

/-- `operator<` of the class of a family; `none` where an operand is of another class. -/
def less (f : Family) (l r : AddressObject) : Option Bool :=
  match f, l, r with
  | .IPv4, .ipv4 l, .ipv4 r => some (l.less r)
  | .IPv6, .ipv6 l, .ipv6 r => some (l.less r)
  | .unix, .unix l, .unix r => some (l.less pl r)
  | _, _, _ => none

/-- The string constructor of the class of a family. -/
def ofString (f : Family) (addrstr : List UInt8) : Except Exn AddressObject :=
  match f with
  | .IPv4 => (IPv4Address.ofString pl addrstr).map .ipv4
  | .IPv6 => (IPv6Address.ofString pl addrstr).map .ipv6
  | .unix => (UnixAddress.ofString pl addrstr).map .unix

/-- The C structure constructor of the class of a family, on a reinterpreted
`sockaddr_storage`; `none` is a read outside of it. -/
def ofStorage (f : Family) (from_ : SockaddrStorage) (len : Nat) :
    Option (Except Exn AddressObject) :=
  match f with
  | .IPv4 => some ((IPv4Address.ofSockaddrIn pl (from_.array 0 16 (by decide))).map .ipv4)
  | .IPv6 => some ((IPv6Address.ofSockaddrIn6 pl (from_.array 0 28 (by decide))).map .ipv6)
  | .unix => (UnixAddress.ofSockaddrUn from_ len).map (fun a => .ok (.unix a))

end AddressObject

/-- The members of `sks::address`. -/
structure Address where
  m_domain : Nat
  base : Option Nat
deriving DecidableEq

structure Addresses where
  lib : Library
  heap : Store AddressObject
  vars : Store Address
deriving DecidableEq

abbrev AddrProg := Prog Fault Exn Addresses

namespace Addresses

variable (pl : Platform)

def initial : Addresses := ⟨{}, Store.empty, Store.empty⟩

def onLibrary {α : Type} (m : Prog Fault Exn Library α) : AddrProg α :=
  Prog.zoom Addresses.lib (fun l s => { s with lib := l }) m

/-! ### Objects -/

/-- The constructors of `addressBase`. -/
def addressBase : AddrProg Unit := onLibrary (autoInitializeLibrary pl)

/-- The destructor of `addressBase`; an exception that leaves it ends the program. -/
def addressBaseDtor : AddrProg Unit :=
  Prog.tryCatch (onLibrary (autoDeinitializeLibrary pl)) (fun _ => Prog.undefined .terminate)

/-- Construct an object whose constructor body yields `body`. When the body throws, the
base is destroyed again. -/
def newObject (body : Option (Except Exn AddressObject)) : AddrProg Nat := do
  addressBase pl
  match body with
  | none => Prog.undefined .outOfBounds
  | some (.error e) => do
    addressBaseDtor pl
    Prog.raise e
  | some (.ok o) => do
    let p ← Prog.gets (fun s => s.heap.next)
    Prog.modify fun s => { s with heap := s.heap.push o }
    pure p

/-- Destroy an object. -/
def destroyObject (p : Nat) : AddrProg Unit := do
  let s ← Prog.gets id
  if (s.heap.get p).isNone then Prog.undefined .doubleDelete
  addressBaseDtor pl
  Prog.modify fun s => { s with heap := s.heap.erase p }

/-- `delete` of a base pointer. -/
def deleteBase (base : Option Nat) : AddrProg Unit :=
  match base with
  | none => pure ()
  | some p => destroyObject pl p

/-- A local object: it is destroyed when its scope is left, normally or by an exception. -/
def withObject {α : Type} (body : Option (Except Exn AddressObject)) (k : Nat → AddrProg α) :
    AddrProg α := do
  let p ← newObject pl body
  let r ← Prog.tryCatch (k p) (fun e => do
    destroyObject pl p
    Prog.raise e)
  destroyObject pl p
  pure r

def object (p : Nat) : AddrProg AddressObject := do
  let s ← Prog.gets id
  Prog.demand (s.heap.get p) .danglingPointer

/-- The object behind a base pointer. -/
def dereference (base : Option Nat) : AddrProg AddressObject := do
  let p ← Prog.demand base .nullPointer
  object p

/-! ### Members of `sks::address` -/

def this (x : Nat) : AddrProg Address := do
  let s ← Prog.gets id
  Prog.demand (s.vars.get x) .danglingPointer

def setDomain (x d : Nat) : AddrProg Unit := do
  let a ← this x
  Prog.modify fun s => { s with vars := s.vars.put x { a with m_domain := d } }

def setBase (x : Nat) (p : Option Nat) : AddrProg Unit := do
  let a ← this x
  Prog.modify fun s => { s with vars := s.vars.put x { a with base := p } }

/-- A constructor: `m_domain` starts indeterminate (every body writes it before anything
reads it) and `base` null. When the body throws there is no object, and no destructor runs. -/
def construct (body : Nat → AddrProg Unit) : AddrProg Nat := do
  let x ← Prog.gets (fun s => s.vars.next)
  Prog.modify fun s => { s with vars := s.vars.push ⟨0, none⟩ }
  Prog.tryCatch (body x) (fun e => do
    Prog.modify fun s => { s with vars := s.vars.erase x }
    Prog.raise e)
  pure x

def size (x : Nat) : AddrProg Nat := do
  let a ← this x
  match a.base with
  | none => pure 0
  | some _ => do
    let o ← dereference a.base
    pure o.size

def toSockaddrStorage (fr : Frame) (x : Nat) : AddrProg SockaddrStorage := do
  let a ← this x
  let o ← dereference a.base
  Prog.demand (o.toSockaddrStorage pl fr) .outOfBounds

def assign (x : Nat) (from_ : SockaddrStorage) (len : Nat) : AddrProg Unit := do
  let a ← this x
  deleteBase pl a.base
  setDomain x (ssFamily pl from_)
  match pl.familyOf (ssFamily pl from_) with
  | some f => do
    let p ← newObject pl (AddressObject.ofStorage pl f from_ len)
    setBase x (some p)
  | none => Prog.raise (sysErr pl EFAULT)

def default : AddrProg Nat := construct fun x => setDomain x 0xFF

/-- Parse into a local, copy the local to the heap and take the copy. -/
def adopt (x : Nat) (f : Family) (addrstr : List UInt8) (after : AddrProg Unit) : AddrProg Unit :=
  withObject pl (some (AddressObject.ofString pl f addrstr)) fun addr => do
    let o ← object addr
    let p ← newObject pl (some (.ok o))
    setBase x (some p)
    after

def ofString (addrstr : List UInt8) (d : Nat) : AddrProg Nat := construct fun x => do
  setDomain x d
  match pl.familyOf d with
  | some f => adopt pl x f addrstr (pure ())
  | none =>
    Prog.tryCatch (adopt pl x .IPv6 addrstr (setDomain x (pl.domainOf .IPv6))) fun _ =>
      Prog.tryCatch (adopt pl x .IPv4 addrstr (setDomain x (pl.domainOf .IPv4))) fun _ =>
        Prog.raise (.runtimeError
          (bytes "Could not parse string to address. You may need to specify domain."))

def ofStorage (from_ : SockaddrStorage) (len : Nat) : AddrProg Nat :=
  construct fun x => assign pl x from_ len

/-- Construction from an object of a derived class. -/
def ofBase (fr : Frame) (o : AddressObject) : AddrProg Nat := construct fun x => do
  let st ← Prog.demand (o.toSockaddrStorage pl fr) .outOfBounds
  assign pl x st o.size

/-- Copy construction; the argument refers to an address that is already there. -/
def copy (fr : Frame) (y : Nat) : AddrProg Nat := do
  let _ ← this y
  construct fun x => do
    let n ← size y
    if 0 < n then
      let st ← toSockaddrStorage pl fr y
      let n ← size y
      assign pl x st n
    else
      let addr ← this y
      setDomain x addr.m_domain

/-- Move construction; the argument refers to an address that is already there. -/
def move (y : Nat) : AddrProg Nat := do
  let _ ← this y
  construct fun x => do
    let addr ← this y
    setDomain x addr.m_domain
    setBase x addr.base
    setBase y none

def destroy (x : Nat) : AddrProg Unit := do
  let a ← this x
  deleteBase pl a.base
  Prog.modify fun s => { s with vars := s.vars.erase x }

def copyAssign (fr : Frame) (x y : Nat) : AddrProg Unit := do
  let n ← size y
  if 0 < n then
    let st ← toSockaddrStorage pl fr y
    let n ← size y
    assign pl x st n
  else
    let addr ← this y
    setDomain x addr.m_domain
    let a ← this x
    deleteBase pl a.base

def moveAssign (x y : Nat) : AddrProg Unit := do
  let addr ← this y
  setDomain x addr.m_domain
  let addr ← this y
  setBase x addr.base
  setBase y none

/-- The cast to the class of a family: a copy of the object. -/
def castTo (f : Family) (x : Nat) : AddrProg Nat := do
  let a ← this x
  if a.m_domain ≠ pl.domainOf f then
    Prog.raise (.runtimeError (bytes "Cannot convert address domain"))
  let o ← dereference a.base
  newObject pl (some (.ok o))

def addressDomain (x : Nat) : AddrProg Nat := do
  let a ← this x
  pure a.m_domain

def name (x : Nat) : AddrProg (List UInt8) := do
  let a ← this x
  let o ← dereference a.base
  pure o.name

def equals (x y : Nat) : AddrProg Bool := do
  let l ← this x
  let r ← this y
  if l.m_domain = r.m_domain then
    if l.base = none ∨ r.base = none then pure (l.base = r.base)
    else
      match pl.familyOf l.m_domain with
      | some f => do
        let lo ← dereference l.base
        let ro ← dereference r.base
        Prog.demand (AddressObject.equals f lo ro) .typeConfusion
      | none => Prog.raise (sysErr pl EINVAL)
  else pure false

def notEquals (x y : Nat) : AddrProg Bool := do
  let same ← equals pl x y
  pure (!same)

/-- Pointer comparison where one side is null; null is below every object. -/
def pointerLess : Option Nat → Option Nat → Bool
  | none, some _ => true
  | _, _ => false

def less (x y : Nat) : AddrProg Bool := do
  let l ← this x
  let r ← this y
  if l.m_domain ≠ r.m_domain then pure (l.m_domain < r.m_domain)
  else if l.base = none ∨ r.base = none then pure (pointerLess l.base r.base)
  else
    match pl.familyOf l.m_domain with
    | some f => do
      let lo ← dereference l.base
      let ro ← dereference r.base
      Prog.demand (AddressObject.less pl f lo ro) .typeConfusion
    | none => Prog.raise (sysErr pl EINVAL)

end Addresses

/-! ### Runs -/

/-- What a program does with its `sks::address` objects: construction in all its forms,
assignment and destruction. -/
inductive AddressOp where
  | default
  | ofString (addrstr : List UInt8) (d : Nat)
  | ofStorage (from_ : SockaddrStorage) (len : Nat)
  | ofBase (fr : Frame) (o : AddressObject)
  | copy (fr : Frame) (y : Nat)
  | move (y : Nat)
  | copyAssign (fr : Frame) (x y : Nat)
  | moveAssign (x y : Nat)
  | assign (x : Nat) (from_ : SockaddrStorage) (len : Nat)
  | destroy (x : Nat)

namespace AddressOp

variable (pl : Platform)

def exec : AddressOp → AddrProg Unit
  | .default => do
    let _ ← Addresses.default
    pure ()
  | .ofString addrstr d => do
    let _ ← Addresses.ofString pl addrstr d
    pure ()
  | .ofStorage st len => do
    let _ ← Addresses.ofStorage pl st len
    pure ()
  | .ofBase fr o => do
    let _ ← Addresses.ofBase pl fr o
    pure ()
  | .copy fr y => do
    let _ ← Addresses.copy pl fr y
    pure ()
  | .move y => do
    let _ ← Addresses.move y
    pure ()
  | .copyAssign fr x y => Addresses.copyAssign pl fr x y
  | .moveAssign x y => Addresses.moveAssign x y
  | .assign x st len => Addresses.assign pl x st len
  | .destroy x => Addresses.destroy pl x

/-- The state the program goes on from; an exception is caught by the caller. -/
def step (s : Addresses) (op : AddressOp) : Option Addresses := (op.exec pl s).resume

end AddressOp

end SockLib
