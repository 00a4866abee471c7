import SockLib.Model.Address
import SockLib.Model.Kernel

/-!
# The socket class

The state of a program that uses the library: its addresses, its live socket objects and
the kernel. An answer of the kernel is `.error errno` for a call that returns -1.
-/

namespace SockLib

/-- The members of `sks::socket`. -/
structure Socket where
  m_validFD : Bool
  m_sockFD : Int
  m_domain : Nat
  m_type : Int
  m_protocol : Int
deriving DecidableEq

structure World where
  addr : Addresses
  socks : Store Socket
  kernel : Kernel
deriving DecidableEq

abbrev SockProg := Prog Fault Exn World

/-- What `getsockname` and `getpeername` answer: the bytes and the length written. -/
abbrev NameAnswer := Except Int (SockaddrStorage × Nat)

namespace World

variable (pl : Platform)

/-- A program that has done nothing yet, on a file system with some files. -/
def initial (autoInitialize : Bool) (files : List (List UInt8)) : World :=
  ⟨⟨{ autoInitialize }, Store.empty, Store.empty⟩, Store.empty, Kernel.initial files⟩

def addresses {α : Type} (m : AddrProg α) : SockProg α :=
  Prog.zoom World.addr (fun a s => { s with addr := a }) m

def library {α : Type} (m : Prog Fault Exn Library α) : SockProg α :=
  addresses (Addresses.onLibrary m)

/-! ### System calls -/

def sysCall (c : Call) : SockProg Unit :=
  Prog.modify fun s => { s with kernel := { s.kernel with calls := c :: s.kernel.calls } }

/-- What a successful call does to the kernel. -/
def kernelStep (f : Kernel → Option Kernel) : SockProg Unit := do
  let s ← Prog.gets id
  let k ← Prog.demand (f s.kernel) .noSuchAnswer
  Prog.modify fun s => { s with kernel := k }

/-- `if (e == -1) throw sysErr(errno);` -/
def check {α : Type} (answer : Except Int α) : SockProg α :=
  match answer with
  | .ok a => pure a
  | .error errno => Prog.raise (sysErr pl errno)

/-! ### Objects -/

def this (x : Nat) : SockProg Socket := do
  let s ← Prog.gets id
  Prog.demand (s.socks.get x) .danglingPointer

/-- The open descriptor whose number an object has. -/
def descriptor (s : World) (x : Nat) : Option Nat := do
  let v ← s.socks.get x
  s.kernel.lookup v.m_sockFD

def setSocket (x : Nat) (v : Socket) : SockProg Unit := do
  let _ ← this x
  Prog.modify fun s => { s with socks := s.socks.put x v }

def newSocket (v : Socket) : SockProg Nat := do
  let x ← Prog.gets (fun s => s.socks.next)
  Prog.modify fun s => { s with socks := s.socks.push v }
  pure x

/-- The constructor that makes a descriptor. The library is entered before. -/
def create (d : Nat) (t protocol : Int) (answer : Except Int Int) : SockProg Nat := do
  library (autoInitializeLibrary pl)
  sysCall (.socket d t protocol)
  let fd ← check pl answer
  kernelStep (fun k => k.allocate fd none)
  newSocket ⟨true, fd, d, t, protocol⟩

/-- The constructor around a descriptor. When the library does not start, there is no object. -/
def wrap (fd : Int) (d : Nat) (t protocol : Int) : SockProg Nat := do
  library (autoInitializeLibrary pl)
  newSocket ⟨true, fd, d, t, protocol⟩

/-- `std::swap` of all members, also of an object with itself. -/
def swapMembers (x y : Nat) : SockProg Unit := do
  let a ← this x
  let b ← this y
  setSocket x b
  setSocket y a

/-- The move constructor. Only `m_validFD` of the new object is initialised; the other
members start as `junk`. -/
def moveConstruct (y : Nat) (junk : Socket) : SockProg Nat := do
  let _ ← this y
  let x ← newSocket { junk with m_validFD := false }
  swapMembers x y
  pure x

def moveAssign (x y : Nat) : SockProg Unit := swapMembers x y

/-- `==` compares the numbers, whether the objects own them or not. -/
def equals (x y : Nat) : SockProg Bool := do
  let a ← this x
  let b ← this y
  pure (a.m_sockFD = b.m_sockFD)

def notEquals (x y : Nat) : SockProg Bool := do
  let a ← this x
  let b ← this y
  pure (a.m_sockFD ≠ b.m_sockFD)

/-! ### Calls on the descriptor of an object -/

/-- A member that passes `m_sockFD` to one system call and throws when it fails. -/
def request {α : Type} (x : Nat) (call : Int → Call) (answer : Except Int α) : SockProg α := do
  let s ← this x
  sysCall (call s.m_sockFD)
  check pl answer

def bind (x : Nat) (address : SockaddrStorage) (len : Nat) (answer : Except Int Unit) :
    SockProg Unit := do
  let s ← this x
  if ssFamily pl address ≠ s.m_domain then Prog.raise (sysErr pl EFAULT)
  request pl x (fun fd => .bind fd address len) answer
  kernelStep (fun k => k.bind s.m_sockFD (kernelPath pl address len))

def listen (x : Nat) (backlog : Int) (answer : Except Int Unit) : SockProg Unit :=
  request pl x (fun fd => .listen fd backlog) answer

def accept (x : Nat) (answer : Except Int Int) : SockProg Nat := do
  let peerFD ← request pl x .accept answer
  let s ← this x
  kernelStep (fun k => k.accept s.m_sockFD peerFD)
  wrap pl peerFD s.m_domain s.m_type s.m_protocol

def connect (x : Nat) (address : SockaddrStorage) (len : Nat) (answer : Except Int Unit) :
    SockProg Unit :=
  request pl x (fun fd => .connect fd address len) answer

/-- What `::send` is offered after `sent` bytes: the rest, in as far as its size fits the type
of the parameter. -/
def nextPiece (data : List UInt8) (sent : Nat) : List UInt8 :=
  (data.drop sent).take (pl.callLength (data.length - sent))

/-- The loop of both kinds of `send`: one answer for each call. -/
def sendLoop (x : Nat) (call : Int → List UInt8 → Call) (data : List UInt8) :
    Nat → List (Except Int Nat) → SockProg Unit
  | sent, [] => if sent < data.length then Prog.undefined .noSuchAnswer else pure ()
  | sent, answer :: answers =>
    if sent < data.length then do
      let r ← request pl x (fun fd => call fd (nextPiece pl data sent)) answer
      sendLoop x call data (sent + r) answers
    else pure ()

def send (x : Nat) (data : List UInt8) (flags : Nat) (answers : List (Except Int Nat)) :
    SockProg Unit :=
  sendLoop pl x (fun fd piece => .send fd piece (flags ||| pl.MSG_NOSIGNAL)) data 0 answers

def sendTo (x : Nat) (data : List UInt8) (toAddr : SockaddrStorage) (addrLen flags : Nat)
    (answers : List (Except Int Nat)) : SockProg Unit :=
  sendLoop pl x (fun fd piece => .sendto fd piece (flags ||| pl.MSG_NOSIGNAL) toAddr addrLen)
    data 0 answers

/-- `std::vector::resize`: cut, or filled up with zeros. -/
def resize (buffer : List UInt8) (n : Nat) : List UInt8 :=
  buffer.take n ++ List.replicate (n - buffer.length) 0

/-- The vector that `receive` returns for a payload: what fits of it is written to a buffer of
zeros, which is then resized to the length that is reported. With `MSG_TRUNC` the length is
that of a whole datagram, which may be more than fits. -/
def receivedVector (bufSize : Nat) (payload : List UInt8) : List UInt8 :=
  resize (payload.take bufSize ++ List.replicate (bufSize - payload.length) 0) payload.length

lemma length_receivedVector (bufSize : Nat) (payload : List UInt8) :
    (receivedVector bufSize payload).length = payload.length := by
  simp only [receivedVector, resize, List.length_append, List.length_take, List.length_replicate]
  omega

lemma receivedVector_of_le {bufSize : Nat} {payload : List UInt8} (h : payload.length ≤ bufSize) :
    receivedVector bufSize payload = payload := by
  have hfill : payload.length - (payload.take bufSize ++
      List.replicate (bufSize - payload.length) (0 : UInt8)).length = 0 := by
    simp only [List.length_append, List.length_take, List.length_replicate]
    omega
  rw [receivedVector, resize, hfill, List.take_of_length_le h, List.take_left]
  exact List.append_nil payload

def receive (x bufSize flags : Nat) (answer : Except Int (List UInt8)) :
    SockProg (List UInt8) := do
  let payload ← request pl x
    (fun fd => .recv fd (pl.callLength bufSize) (flags ||| pl.MSG_NOSIGNAL)) answer
  pure (receivedVector bufSize payload)

def receiveRaw (x bufSize flags : Nat) (answer : Except Int (List UInt8 × SockaddrStorage × Nat)) :
    SockProg (List UInt8 × SockaddrStorage × Nat) :=
  request pl x
    (fun fd => .recvfrom fd (pl.callLength bufSize) (flags ||| pl.MSG_NOSIGNAL)) answer

/-- `receive(address&, ...)`: the address is replaced after the payload has been received. -/
def receiveFrom (x from_ bufSize flags : Nat)
    (answer : Except Int (List UInt8 × SockaddrStorage × Nat)) : SockProg (List UInt8) := do
  let (payload, addr, addrLen) ← receiveRaw pl x bufSize flags answer
  addresses do
    let tmp ← Addresses.ofStorage pl addr addrLen
    Addresses.moveAssign from_ tmp
    Addresses.destroy pl tmp
  pure (receivedVector bufSize payload)

def setOption (x : Nat) (level option : Int) (value : List UInt8) (answer : Except Int Unit) :
    SockProg Unit :=
  request pl x (fun fd => .setsockopt fd level option value) answer

def getOption (x : Nat) (level option : Int) (answer : Except Int (List UInt8)) :
    SockProg (List UInt8) :=
  request pl x (fun fd => .getsockopt fd level option) answer

/-- `readReady` and `writeReady`: whether `poll` reports all the events asked for. -/
def ready (x events : Nat) (timeout : Int) (answer : Except Int Nat) : SockProg Bool := do
  let revents ← request pl x (fun fd => .poll fd events timeout) answer
  pure (revents &&& events = events)

def bytesReady (x : Nat) (answer : Except Int Nat) : SockProg Nat :=
  request pl x .ioctl answer

def connectedAddress (x : Nat) (answer : NameAnswer) : SockProg Nat := do
  let (sa, salen) ← request pl x .getpeername answer
  addresses (Addresses.ofStorage pl sa salen)

def localAddress (x : Nat) (answer : NameAnswer) : SockProg Nat := do
  let (sa, salen) ← request pl x .getsockname answer
  addresses (Addresses.ofStorage pl sa salen)

/-- `socketFD(bool)`: the number is returned whether the object owns a descriptor or not. -/
def socketFD (x : Nat) (takeOwnership : Bool) : SockProg Int := do
  let s ← this x
  if takeOwnership then
    setSocket x { s with m_validFD := false }
    kernelStep (fun k => some (k.hand s.m_sockFD))
  pure s.m_sockFD

/-! ### Members that take an address -/

def bindAddress (x : Nat) (fr : Frame) (address : Nat) (answer : Except Int Unit) :
    SockProg Unit := do
  let addr ← addresses (Addresses.toSockaddrStorage pl fr address)
  let len ← addresses (Addresses.size address)
  bind pl x addr len answer

def connectAddress (x : Nat) (fr : Frame) (address : Nat) (answer : Except Int Unit) :
    SockProg Unit := do
  let addr ← addresses (Addresses.toSockaddrStorage pl fr address)
  let len ← addresses (Addresses.size address)
  connect pl x addr len answer

def sendAddress (x : Nat) (data : List UInt8) (fr : Frame) (to_ flags : Nat)
    (answers : List (Except Int Nat)) : SockProg Unit := do
  let addr ← addresses (Addresses.toSockaddrStorage pl fr to_)
  let len ← addresses (Addresses.size to_)
  sendTo pl x data addr len flags answers

/-! ### Destruction -/

/-- Code that no exception may leave. -/
def noexcept {α : Type} (m : SockProg α) : SockProg α :=
  Prog.tryCatch m (fun _ => Prog.undefined .terminate)

/-- Remove the pathname that the local address names. -/
def unlinkLocal (local_ : Nat) : SockProg Unit := do
  let localUnix ← addresses (Addresses.castTo pl .unix local_)
  let o ← addresses (Addresses.object localUnix)
  match o with
  | .unix a =>
    if a.named = true then
      sysCall (.unlink (cStr a.name))
      kernelStep (fun k => some (k.unlink (cStr a.name)))
  | _ => Prog.undefined .typeConfusion
  addresses (Addresses.destroyObject pl localUnix)

/-- What the destructor does with the descriptor. Errors of `shutdown` and `close` are ignored. -/
def release (s : Socket) : SockProg Unit := do
  sysCall (.shutdown s.m_sockFD)
  sysCall (.close s.m_sockFD)
  kernelStep (fun k => some (k.close s.m_sockFD))

/-- The destructor; `name` is the answer of `getsockname`. -/
def destroy (x : Nat) (name : NameAnswer) : SockProg Unit := noexcept do
  let s ← this x
  if s.m_validFD = true then
    if pl.windows = true then
      release s
      library (autoDeinitializeLibrary pl)
    else
      let local_ ← localAddress pl x name
      release s
      if s.m_domain = pl.domainOf .unix then unlinkLocal pl local_
      library (autoDeinitializeLibrary pl)
      addresses (Addresses.destroy pl local_)
  Prog.modify fun s => { s with socks := s.socks.erase x }

/-! ### Free functions -/

/-- `std::swap`: by way of a temporary, which owns nothing when it is destroyed. -/
def swap (x y : Nat) (junk : Socket) : SockProg Unit := do
  let _ ← this y
  let tmp ← moveConstruct x junk
  moveAssign x y
  moveAssign y tmp
  destroy pl tmp (.error 0)

/-- Two connected sockets. The temporaries are moved into the pair that is returned. There is
no such function in the Windows build. -/
def createUnixPair (t protocol : Int) (junk junk' : Socket) (answer : Except Int (Int × Int)) :
    SockProg (Nat × Nat) := do
  if pl.windows = true then
    Prog.raise (.runtimeError
      (bytes "createUnixPair is not implemented for windows systems."))
  sysCall (.socketpair (pl.domainOf .unix) t protocol)
  let (fd0, fd1) ← check pl answer
  kernelStep (fun k => k.allocate fd0 none)
  kernelStep (fun k => k.allocate fd1 none)
  let first ← wrap pl fd0 (pl.domainOf .unix) t protocol
  let second ← wrap pl fd1 (pl.domainOf .unix) t protocol
  let x ← moveConstruct first junk
  let y ← moveConstruct second junk'
  destroy pl second (.error 0)
  destroy pl first (.error 0)
  pure (x, y)

end World

/-! ### Runs -/

/-- A member call on an object, with the answers of the kernel. -/
inductive Member where
  | bind (address : SockaddrStorage) (len : Nat) (answer : Except Int Unit)
  | bindAddress (fr : Frame) (address : Nat) (answer : Except Int Unit)
  | listen (backlog : Int) (answer : Except Int Unit)
  | connect (address : SockaddrStorage) (len : Nat) (answer : Except Int Unit)
  | connectAddress (fr : Frame) (address : Nat) (answer : Except Int Unit)
  | send (data : List UInt8) (flags : Nat) (answers : List (Except Int Nat))
  | sendTo (data : List UInt8) (toAddr : SockaddrStorage) (addrLen flags : Nat)
      (answers : List (Except Int Nat))
  | sendAddress (data : List UInt8) (fr : Frame) (to_ flags : Nat)
      (answers : List (Except Int Nat))
  | receive (bufSize flags : Nat) (answer : Except Int (List UInt8))
  | receiveRaw (bufSize flags : Nat) (answer : Except Int (List UInt8 × SockaddrStorage × Nat))
  | receiveFrom (from_ bufSize flags : Nat)
      (answer : Except Int (List UInt8 × SockaddrStorage × Nat))
  | setOption (level option : Int) (value : List UInt8) (answer : Except Int Unit)
  | getOption (level option : Int) (answer : Except Int (List UInt8))
  | ready (events : Nat) (timeout : Int) (answer : Except Int Nat)
  | bytesReady (answer : Except Int Nat)
  | connectedAddress (answer : NameAnswer)
  | localAddress (answer : NameAnswer)

/-- What a program does with its sockets. -/
inductive SocketOp where
  | create (d : Nat) (t protocol : Int) (answer : Except Int Int)
  | accept (x : Nat) (answer : Except Int Int)
  | createUnixPair (t protocol : Int) (junk junk' : Socket) (answer : Except Int (Int × Int))
  | move (y : Nat) (junk : Socket)
  | moveAssign (x y : Nat)
  | swap (x y : Nat) (junk : Socket)
  | socketFD (x : Nat) (takeOwnership : Bool)
  | destroy (x : Nat) (name : NameAnswer)
  | member (x : Nat) (m : Member)

def discard {φ ε σ α : Type} (m : Prog φ ε σ α) : Prog φ ε σ Unit := do
  let _ ← m
  pure ()

def Member.exec (pl : Platform) (x : Nat) : Member → SockProg Unit
  | .bind address len answer => World.bind pl x address len answer
  | .bindAddress fr address answer => World.bindAddress pl x fr address answer
  | .listen backlog answer => World.listen pl x backlog answer
  | .connect address len answer => World.connect pl x address len answer
  | .connectAddress fr address answer => World.connectAddress pl x fr address answer
  | .send data flags answers => World.send pl x data flags answers
  | .sendTo data toAddr addrLen flags answers =>
    World.sendTo pl x data toAddr addrLen flags answers
  | .sendAddress data fr to_ flags answers => World.sendAddress pl x data fr to_ flags answers
  | .receive bufSize flags answer => discard (World.receive pl x bufSize flags answer)
  | .receiveRaw bufSize flags answer => discard (World.receiveRaw pl x bufSize flags answer)
  | .receiveFrom from_ bufSize flags answer =>
    discard (World.receiveFrom pl x from_ bufSize flags answer)
  | .setOption level option value answer => World.setOption pl x level option value answer
  | .getOption level option answer => discard (World.getOption pl x level option answer)
  | .ready events timeout answer => discard (World.ready pl x events timeout answer)
  | .bytesReady answer => discard (World.bytesReady pl x answer)
  | .connectedAddress answer => discard (World.connectedAddress pl x answer)
  | .localAddress answer => discard (World.localAddress pl x answer)

namespace SocketOp

variable (pl : Platform)

def exec : SocketOp → SockProg Unit
  | .create d t protocol answer => discard (World.create pl d t protocol answer)
  | .accept x answer => discard (World.accept pl x answer)
  | .createUnixPair t protocol junk junk' answer =>
    discard (World.createUnixPair pl t protocol junk junk' answer)
  | .move y junk => discard (World.moveConstruct y junk)
  | .moveAssign x y => World.moveAssign x y
  | .swap x y junk => World.swap pl x y junk
  | .socketFD x takeOwnership => discard (World.socketFD x takeOwnership)
  | .destroy x name => World.destroy pl x name
  | .member x m => do
    let _ ← World.this x
    m.exec pl x

/-- One operation, with a record of its own system calls. -/
def start (s : World) : World := { s with kernel := { s.kernel with calls := [] } }

/-- The state the program goes on from; an exception is caught by the caller. -/
def step (s : World) (op : SocketOp) : Option World := (op.exec pl (start s)).resume

/-- What `getsockname` answers on Linux for an open descriptor: an address with the pathname
and the NUL behind it, or one without a pathname. -/
def answersName (k : Kernel) (n : Int) : NameAnswer → Bool
  | .error _ => false
  | .ok (st, len) =>
    match (k.lookup n).bind k.descs.get with
    | none => false
    | some d => kernelPath pl st len = d.localPath &&
      (d.localPath.all (fun p => len = p.length + 3))

/-- Whether a destructor is told the local address of its descriptor. -/
def answered (s : World) : SocketOp → Bool
  | .destroy x name =>
    match s.socks.get x with
    | some v => !v.m_validFD || answersName pl s.kernel v.m_sockFD name
    | none => true
  | _ => true

/-- One operation, on a kernel whose `getsockname` answers so. -/
def answeredStep (s : World) (op : SocketOp) : Option World :=
  if answered pl s op then step pl s op else none

end SocketOp

/-- A program also closes descriptors on its own, those that the library has handed over. -/
inductive ProgramOp where
  | library (op : SocketOp)
  | close (n : Int)

def ProgramOp.step (pl : Platform) (s : World) : ProgramOp → Option World
  | .library op => op.step pl s
  | .close n => (s.kernel.callerClose n).map (fun kernel => { s with kernel })

end SockLib
