import Mathlib.Logic.Function.Basic
import SockLib.Model.Socket
import SockLib.Proofs.RoundTrip

/-!
# Datagrams

A network of datagram sockets. The kernel gives descriptors their endpoints, and keeps the
letters that have come for each of them. It understands C addresses: `read` is what it takes
one for. The program sees nothing of this but what the members of its sockets tell it, and its
operations interleave in any order.
-/

namespace SockLib

variable (pl : Platform)

instance (st : SockaddrStorage) (len : Nat) : Decidable (Canonical pl st len) :=
  decidable_of_iff
    ((ssFamily pl st = pl.domainOf .IPv4 ∧ len = 16) ∨
      (ssFamily pl st = pl.domainOf .IPv6 ∧ len = 28) ∨
      (ssFamily pl st = pl.domainOf .unix ∧
        (len = 2 ∨ (st.slice 2 1 = [0] ∧ 3 ≤ len ∧ len ≤ 109) ∨
          (st.slice 2 1 ≠ [0] ∧ 4 ≤ len ∧ len ≤ 110 ∧ st.slice (len - 1) 1 = [0]))))
    (by
      constructor
      · rintro (⟨h, rfl⟩ | ⟨h, rfl⟩ | ⟨h, rfl | ⟨hf, hmin, hmax⟩ | ⟨hf, hmin, hmax, hnul⟩⟩)
        · exact .inet h
        · exact .inet6 h
        · exact .unnamed h
        · exact .abstract len h hf hmin hmax
        · exact .pathname len h hf hmin hmax hnul
      · intro h
        cases h with
        | inet h => exact Or.inl ⟨h, rfl⟩
        | inet6 h => exact Or.inr (Or.inl ⟨h, rfl⟩)
        | unnamed h => exact Or.inr (Or.inr ⟨h, Or.inl rfl⟩)
        | abstract len h hf hmin hmax =>
          exact Or.inr (Or.inr ⟨h, Or.inr (Or.inl ⟨hf, hmin, hmax⟩)⟩)
        | pathname len h hf hmin hmax hnul =>
          exact Or.inr (Or.inr ⟨h, Or.inr (Or.inr ⟨hf, hmin, hmax, hnul⟩)⟩))

/-- What the kernel takes a C address for: an endpoint, if it names one. -/
structure Wire (κ : Type) where
  read : SockaddrStorage → Nat → Option κ

/-- Only the bytes that are passed matter, and `sin_zero` does not. -/
def Wire.Faithful {κ : Type} (w : Wire κ) : Prop :=
  ∀ st st' len, SameBytes pl st st' len → w.read st' len = w.read st len

/-- The kernel may tell of an endpoint by this C address. -/
def Wire.Reports {κ : Type} (w : Wire κ) (st : SockaddrStorage) (len : Nat) (k : κ) : Prop :=
  Canonical pl st len ∧ w.read st len = some k

instance {κ : Type} [DecidableEq κ] (w : Wire κ) (st : SockaddrStorage) (len : Nat) (k : κ) :
    Decidable (w.Reports pl st len k) := inferInstanceAs (Decidable (_ ∧ _))

/-- The endpoint that an address names when it is encoded. -/
def AddressObject.endpoint {κ : Type} (w : Wire κ) (o : AddressObject) : Option κ := do
  let st ← o.toSockaddrStorage pl ⟨fun _ => 0, fun _ => 0⟩
  w.read st o.size

structure Letter (κ : Type) where
  source : κ
  data : List UInt8
deriving DecidableEq

/-- A successful call of `send`: the endpoint it was made on, the one that its address named,
and the data. -/
structure Sending (κ : Type) where
  source : κ
  to_ : Option κ
  data : List UInt8

/-- A successful call of `receive`: the size of the buffer, the vector that was returned and
what the address named then. -/
structure Receipt (κ : Type) where
  bufSize : Nat
  from_ : Option κ
  data : List UInt8

/-- The endpoints of the descriptors and the letters waiting for them belong to the kernel.
`sent`, `posted` and `received` record what has happened; nothing reads them. -/
structure Network (κ : Type) where
  program : World
  home : Nat → Option κ
  inbox : Nat → List (Letter κ)
  sent : List (Sending κ)
  posted : Nat → List (Letter κ)
  received : Nat → List (Receipt κ)

/-- A member that binds, connects, sends or receives. -/
def Member.carriesMail : Member → Bool
  | .listen .. => false
  | .setOption .. => false
  | .getOption .. => false
  | .ready .. => false
  | .bytesReady .. => false
  | .connectedAddress .. => false
  | .localAddress .. => false
  | _ => true

def ProgramOp.carriesMail : ProgramOp → Bool
  | .library (.member _ m) => m.carriesMail
  | _ => false

/-- What the program does, and `assign`, where the kernel itself gives an endpoint to a
descriptor. `delivered` says whether a letter arrives. -/
inductive DatagramOp (κ : Type) where
  | program (op : ProgramOp)
  | address (op : AddressOp)
  | assign (i : Nat) (k : κ)
  | bind (x : Nat) (fr : Frame) (address : Nat) (answer : Except Int Unit)
  | localAddress (x : Nat) (answer : NameAnswer)
  | send (x : Nat) (data : List UInt8) (fr : Frame) (to_ : Nat) (answer : Except Int Unit)
      (delivered : Bool)
  | receive (x from_ bufSize : Nat) (answer : NameAnswer)

namespace Network

variable {κ : Type} [DecidableEq κ] (w : Wire κ) (n : Network κ)

def initial (autoInitialize : Bool) (files : List (List UInt8)) : Network κ :=
  ⟨World.initial autoInitialize files, fun _ => none, fun _ => [], [], fun _ => [], fun _ => []⟩

/-- The endpoint that an address variable names. -/
def named (s : Addresses) (x : Nat) : Option κ := do
  let a ← s.vars.get x
  let p ← a.base
  let o ← s.heap.get p
  o.endpoint pl w

/-- The open descriptor that has an endpoint. -/
def holder (k : κ) : Option Nat :=
  (List.range n.program.kernel.descs.next).find? fun i =>
    n.program.kernel.isOpen i && n.home i == some k

/-- The kernel gives a free endpoint to an open descriptor that has none. -/
def settle (i : Nat) (k : κ) : Option (Network κ) :=
  if n.program.kernel.isOpen i = true ∧ n.home i = none ∧ n.holder k = none then
    some { n with home := Function.update n.home i (some k) }
  else none

/-- A letter is put into the inbox of whoever has the endpoint. -/
def post (letter : Letter κ) (k : κ) : Network κ :=
  match n.holder k with
  | some i => { n with
      inbox := Function.update n.inbox i (n.inbox i ++ [letter])
      posted := Function.update n.posted i (n.posted i ++ [letter]) }
  | none => n

/-- An address that names an endpoint is bound as this endpoint. -/
def bind (x : Nat) (fr : Frame) (address : Nat) (answer : Except Int Unit) :
    Option (Network κ) := do
  let s ← (World.bindAddress pl x fr address answer (SocketOp.start n.program)).resume
  match s.kernel.calls, answer with
  | .bind _ st len :: _, .ok () =>
    match w.read st len with
    | some k => do
      let i ← n.program.descriptor x
      settle { n with program := s } i k
    | none => some { n with program := s }
  | _, _ => some { n with program := s }

def localAddress (x : Nat) (answer : NameAnswer) : Option (Network κ) :=
  match answer with
  | .ok (st, len) => do
    let i ← n.program.descriptor x
    let k ← n.home i
    if w.Reports pl st len k then
      let s ← (World.localAddress pl x answer (SocketOp.start n.program)).resume
      some { n with program := s }
    else none
  | .error _ => do
    let s ← (World.localAddress pl x answer (SocketOp.start n.program)).resume
    some { n with program := s }

/-- A datagram is sent by one system call, which is answered with the size it was called with.
What is in the record of the call is what the kernel has got. -/
def send (x : Nat) (data : List UInt8) (fr : Frame) (to_ : Nat) (answer : Except Int Unit)
    (delivered : Bool) : Option (Network κ) := do
  let s ← (World.sendAddress pl x data fr to_ 0
    [answer.map fun _ => pl.callLength data.length] (SocketOp.start n.program)).resume
  match s.kernel.calls, answer with
  | .sendto _ piece _ st len :: _, .ok () => do
    let i ← n.program.descriptor x
    let source ← n.home i
    let k ← w.read st len
    let m : Network κ := { n with
      program := s, sent := n.sent ++ [⟨source, named pl w n.program.addr to_, data⟩] }
    some (if delivered then m.post ⟨source, piece⟩ k else m)
  | _, _ => some { n with program := s }

/-- The first letter of the inbox is taken out and its start put into the buffer. The kernel
tells where it came from. The program refers to an address that is there. -/
def receive (x from_ bufSize : Nat) (answer : NameAnswer) : Option (Network κ) :=
  match answer with
  | .ok (st, len) => do
    let i ← n.program.descriptor x
    let _ ← n.program.addr.vars.get from_
    match n.inbox i with
    | letter :: rest =>
      if w.Reports pl st len letter.source then
        match World.receiveFrom pl x from_ bufSize 0 (.ok (letter.data.take bufSize, st, len))
          (SocketOp.start n.program) with
        | .ok buffer s => some { n with
            program := s
            inbox := Function.update n.inbox i rest
            received := Function.update n.received i
              (n.received i ++ [⟨bufSize, named pl w s.addr from_, buffer⟩]) }
        | .throw _ s => some { n with
            program := s, inbox := Function.update n.inbox i rest }
        | .fault _ => none
      else none
    | [] => none
  | .error e => do
    let s ← (World.receiveFrom pl x from_ bufSize 0 (.error e) (SocketOp.start n.program)).resume
    some { n with program := s }

def step (n : Network κ) : DatagramOp κ → Option (Network κ)
  | .program op =>
    if op.carriesMail then none
    else (op.step pl n.program).map fun s => { n with program := s }
  | .address op =>
    (op.step pl n.program.addr).map fun a => { n with program := { n.program with addr := a } }
  | .assign i k => n.settle i k
  | .bind x fr address answer => n.bind pl w x fr address answer
  | .localAddress x answer => n.localAddress pl w x answer
  | .send x data fr to_ answer delivered => n.send pl w x data fr to_ answer delivered
  | .receive x from_ bufSize answer => n.receive pl w x from_ bufSize answer

end Network

end SockLib
