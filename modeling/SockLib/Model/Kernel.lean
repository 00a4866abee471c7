import SockLib.Foundation.Store
import SockLib.Model.UnixAddress

/-!
# The kernel's side of a socket

Descriptors, the files that name unix sockets, and the system calls the library makes. What
a call answers is chosen by the kernel and is an argument of the operations; the functions
here say what an answer means, and are `none` where the kernel never answers so. A number
names the open descriptor that has it, and may be given again once that one is closed.
-/

namespace SockLib

/-- The system calls on sockets, with all that is passed to them. -/
inductive Call where
  | socket (domain : Nat) (type protocol : Int)
  | socketpair (domain : Nat) (type protocol : Int)
  | bind (fd : Int) (addr : SockaddrStorage) (len : Nat)
  | listen (fd backlog : Int)
  | accept (fd : Int)
  | connect (fd : Int) (addr : SockaddrStorage) (len : Nat)
  | send (fd : Int) (data : List UInt8) (flags : Nat)
  | sendto (fd : Int) (data : List UInt8) (flags : Nat) (addr : SockaddrStorage) (len : Nat)
  | recv (fd : Int) (len flags : Nat)
  | recvfrom (fd : Int) (len flags : Nat)
  | setsockopt (fd level option : Int) (value : List UInt8)
  | getsockopt (fd level option : Int)
  | poll (fd : Int) (events : Nat) (timeout : Int)
  | ioctl (fd : Int)
  | getpeername (fd : Int)
  | getsockname (fd : Int)
  | shutdown (fd : Int)
  | close (fd : Int)
  | unlink (path : List UInt8)
deriving DecidableEq

/-- The descriptor a call is made on. -/
def Call.descriptor : Call → Option Int
  | .socket .. => none
  | .socketpair .. => none
  | .unlink _ => none
  | .bind fd .. => some fd
  | .listen fd _ => some fd
  | .accept fd => some fd
  | .connect fd .. => some fd
  | .send fd .. => some fd
  | .sendto fd .. => some fd
  | .recv fd .. => some fd
  | .recvfrom fd .. => some fd
  | .setsockopt fd .. => some fd
  | .getsockopt fd .. => some fd
  | .poll fd .. => some fd
  | .ioctl fd => some fd
  | .getpeername fd => some fd
  | .getsockname fd => some fd
  | .shutdown fd => some fd
  | .close fd => some fd

/-- A descriptor the kernel has given to the library, and what has become of it. -/
structure Descriptor where
  number : Int
  isOpen : Bool := true
  /-- The pathname that `getsockname` reports. -/
  localPath : Option (List UInt8) := none
  /-- The pathname that a call of `bind` on this descriptor has created. -/
  boundPath : Option (List UInt8) := none
  /-- How often the library has closed it, and how often it has returned it to the caller
  who asked for ownership. -/
  closes : Nat := 0
  handed : Nat := 0
deriving DecidableEq

structure Kernel where
  descs : Store Descriptor
  files : List (List UInt8)
  /-- The calls of the operation that runs, the last one first. -/
  calls : List Call
deriving DecidableEq

/-- The pathname in a C address, as the kernel reads it. -/
def kernelPath (pl : Platform) (addr : SockaddrStorage) (len : Nat) : Option (List UInt8) :=
  if ssFamily pl addr = pl.domainOf .unix ∧ 2 < len ∧ addr.slice 2 1 ≠ [0] then
    some (cStr (addr.slice 2 (len - 2)))
  else none

namespace Kernel

def initial (files : List (List UInt8)) : Kernel := ⟨Store.empty, files, []⟩

/-- The open descriptor with a number. -/
def lookup (k : Kernel) (n : Int) : Option Nat :=
  k.descs.find (fun d => d.isOpen && d.number == n)

/-- The kernel has this descriptor still. -/
def isOpen (k : Kernel) (i : Nat) : Bool := (k.descs.get i).any Descriptor.isOpen

/-- A new descriptor. Its number is no error value and belongs to no other open descriptor. -/
def allocate (k : Kernel) (n : Int) (localPath : Option (List UInt8)) : Option Kernel :=
  if n ≠ -1 ∧ k.lookup n = none then
    some { k with descs := k.descs.push { number := n, localPath } }
  else none

/-- `close` by the library. A number that names no open descriptor is an ignored error. -/
def close (k : Kernel) (n : Int) : Kernel :=
  match k.lookup n with
  | some i => { k with
      descs := k.descs.update i (fun d => { d with isOpen := false, closes := d.closes + 1 }) }
  | none => k

/-- The number is returned to a caller who asks for ownership. -/
def hand (k : Kernel) (n : Int) : Kernel :=
  match k.lookup n with
  | some i => { k with descs := k.descs.update i (fun d => { d with handed := d.handed + 1 }) }
  | none => k

/-- The caller closes a descriptor that was handed over. -/
def callerClose (k : Kernel) (n : Int) : Option Kernel := do
  let i ← k.lookup n
  let d ← k.descs.get i
  if 0 < d.handed then
    some { k with descs := k.descs.update i (fun d => { d with isOpen := false }) }
  else none

/-- `bind` succeeds on an open descriptor without a pathname. A pathname is created, and
must not be there yet. -/
def bind (k : Kernel) (n : Int) (path : Option (List UInt8)) : Option Kernel := do
  let i ← k.lookup n
  let d ← k.descs.get i
  match path with
  | none => if d.localPath = none then some k else none
  | some p =>
    if d.localPath = none ∧ p ∉ k.files then
      some { k with
        descs := k.descs.update i (fun d => { d with localPath := some p, boundPath := some p })
        files := p :: k.files }
    else none

/-- `accept` succeeds on an open descriptor. The new one has the local address of the listener. -/
def accept (k : Kernel) (n peer : Int) : Option Kernel := do
  let i ← k.lookup n
  let d ← k.descs.get i
  k.allocate peer d.localPath

/-- `unlink` is taken not to fail. -/
def unlink (k : Kernel) (path : List UInt8) : Kernel :=
  { k with files := k.files.filter (· ≠ path) }

end Kernel

end SockLib
