import Mathlib.Logic.Function.Basic
import SockLib.Model.Readiness
import SockLib.Model.Transfer

/-!
# Connections

A program with stream sockets that are connected to each other. The kernel knows what every
descriptor is an end of, and carries what is sent there to the other end, also when that has
not been accepted yet. Calls of `send` are in progress while the program does other things.
-/

namespace SockLib

/-- What a descriptor is for the kernel. A listener has a queue of descriptors that are
connected to it and wait to be accepted. -/
inductive StreamEnd where
  | idle
  | listening (backlog : List Nat)
  | waiting
  | connected (peer : Nat)
deriving DecidableEq

def StreamEnd.sends : StreamEnd → Bool
  | .waiting => true
  | .connected _ => true
  | _ => false

/-- `stream i` is what is sent at the descriptor `i` and received at the other end. -/
structure Connections where
  program : World
  ends : Nat → StreamEnd
  stream : Nat → Transfer

/-- A member whose answer depends on the connections. -/
def Member.usesStreams : Member → Bool
  | .listen _ (.ok _) => true
  | .connect _ _ (.ok _) => true
  | .connectAddress _ _ (.ok _) => true
  | .send .. => true
  | .sendTo .. => true
  | .sendAddress .. => true
  | .receive .. => true
  | .receiveRaw .. => true
  | .receiveFrom .. => true
  | _ => false

def ProgramOp.usesStreams : ProgramOp → Bool
  | .library (.accept _ (.ok _)) => true
  | .library (.createUnixPair _ _ _ _ (.ok _)) => true
  | .library (.member _ m) => m.usesStreams
  | _ => false

/-- What the program does. `send` and its system calls are separate, and the kernel finds the
listener `to_` for the address of a connecting socket. -/
inductive StreamOp where
  | program (op : ProgramOp)
  | listen (x : Nat) (backlog : Int)
  | connect (x : Nat) (fr : Frame) (address to_ : Nat)
  | accept (x : Nat) (peerFD : Int)
  | pair (t protocol : Int) (junk junk' : Socket) (fd0 fd1 : Int)
  | send (x : Nat) (data : List UInt8)
  | transmit (i : Nat) (answer : Except Int Nat)
  | receive (y bufSize : Nat) (answer : Except Int Nat)

namespace Connections

variable (pl : Platform) (n : Connections)

def initial (autoInitialize : Bool) (files : List (List UInt8)) : Connections :=
  ⟨World.initial autoInitialize files, fun _ => .idle, fun _ => .empty⟩

/-- The descriptor has been closed. -/
def gone (i : Nat) : Bool := (n.program.kernel.descs.get i).any fun d => !d.isOpen

/-- Nothing more can be sent at a descriptor that is closed. -/
def hangUp : Connections :=
  { n with stream := fun i =>
      if n.gone i = true then { n.stream i with closed := true } else n.stream i }

def listen (x : Nat) (backlog : Int) : Option Connections := do
  let i ← n.program.descriptor x
  let s ← (World.listen pl x backlog (.ok ()) (SocketOp.start n.program)).resume
  match n.ends i with
  | .idle => some { n with program := s, ends := Function.update n.ends i (.listening []) }
  | .listening _ => some { n with program := s }
  | _ => none

def connect (x : Nat) (fr : Frame) (address to_ : Nat) : Option Connections := do
  let i ← n.program.descriptor x
  let s ← (World.connectAddress pl x fr address (.ok ()) (SocketOp.start n.program)).resume
  match n.ends i, n.ends to_ with
  | .idle, .listening backlog =>
    if n.program.kernel.isOpen to_ = true then
      some { n with
        program := s
        ends := Function.update (Function.update n.ends i .waiting) to_
          (.listening (backlog ++ [i])) }
    else none
  | _, _ => none

/-- The first that waits is connected to the new descriptor. -/
def accept (x : Nat) (peerFD : Int) : Option Connections := do
  let i ← n.program.descriptor x
  let s ← (World.accept pl x (.ok peerFD) (SocketOp.start n.program)).resume
  match n.ends i with
  | .listening (c :: backlog) =>
    let j := n.program.kernel.descs.next
    some { n with
      program := s
      ends := Function.update (Function.update (Function.update n.ends i (.listening backlog))
        c (.connected j)) j (.connected c) }
  | _ => none

def pair (t protocol : Int) (junk junk' : Socket) (fd0 fd1 : Int) : Option Connections :=
  match World.createUnixPair pl t protocol junk junk' (.ok (fd0, fd1))
    (SocketOp.start n.program) with
  | .ok _ s =>
    let i := n.program.kernel.descs.next
    some { n with
      program := s
      ends := Function.update (Function.update n.ends i (.connected (i + 1))) (i + 1)
        (.connected i) }
  | .throw _ s => some { n with program := s }
  | .fault _ => none

/-- A call of `send` begins. -/
def send (x : Nat) (data : List UInt8) : Option Connections := do
  let i ← n.program.descriptor x
  let t ← (n.stream i).step pl (.call (SocketOp.start n.program) x data)
  some { n with stream := Function.update n.stream i t }

/-- The system call of a `send` in progress is answered. Its descriptor is read from the object
again: that has to be there, and still has to be the end of this stream where bytes are accepted.
Only a connected socket can send. -/
def transmit (i : Nat) (answer : Except Int Nat) : Option Connections := do
  let c ← (n.stream i).current
  let _ ← n.program.socks.get c.x
  let t ← (n.stream i).step pl (.transmit answer)
  match answer with
  | .ok _ =>
    if n.program.descriptor c.x = some i ∧ (n.ends i).sends = true then
      some { n with stream := Function.update n.stream i t }
    else none
  | .error _ => some { n with stream := Function.update n.stream i t }

/-- What is received comes from the other end. -/
def receive (y bufSize : Nat) (answer : Except Int Nat) : Option Connections := do
  let j ← n.program.descriptor y
  match n.ends j, answer with
  | .connected i, _ => do
    let t ← (n.stream i).step pl (.receive (SocketOp.start n.program) y bufSize answer)
    some { n with stream := Function.update n.stream i t }
  | _, .error _ => some n
  | _, .ok _ => none

/-- What an operation does, before the kernel hangs up. -/
def act (n : Connections) : StreamOp → Option Connections
  | .program op =>
    if op.usesStreams then none
    else (op.step pl n.program).map fun s => { n with program := s }
  | .listen x backlog => n.listen pl x backlog
  | .connect x fr address to_ => n.connect pl x fr address to_
  | .accept x peerFD => n.accept pl x peerFD
  | .pair t protocol junk junk' fd0 fd1 => n.pair pl t protocol junk junk' fd0 fd1
  | .send x data => n.send pl x data
  | .transmit i answer => n.transmit pl i answer
  | .receive y bufSize answer => n.receive pl y bufSize answer

def step (n : Connections) (op : StreamOp) : Option Connections := (n.act pl op).map hangUp

end Connections

end SockLib
