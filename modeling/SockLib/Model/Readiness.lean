import SockLib.Model.Socket

/-!
# Waiting for sockets

`readReady` and `writeReady` poll the descriptor of one object, `readReadySockets` and
`writeReadySockets` those of a group. A group is a vector of references that the caller
passes by reference; the two loops over it read its elements by their index. Every call of
`poll` is recorded with the array and the time-out it is given.
-/

namespace SockLib

namespace Platform

variable (pl : Platform)

/-- `POLLRDNORM` on Windows. -/
def POLLIN : Nat := if pl.windows then 0x100 else 0x1

/-- `POLLWRNORM` on Windows. -/
def POLLOUT : Nat := if pl.windows then 0x10 else 0x4

end Platform

/-- An entry of the array that `poll` is given. -/
structure Pollfd where
  fd : Int
  events : Nat
  revents : Nat
deriving DecidableEq

structure PollCall where
  pollfds : List Pollfd
  timeout : Int32
deriving DecidableEq

/-- What `poll` answers: `errno`, or the bits it reports for a descriptor and the events that
are asked for. -/
abbrev PollAnswer := Except Int (Int → Nat → Nat)

/-- The vectors of the caller name socket objects. The last call of `poll` comes first. -/
structure Polling where
  world : World
  vectors : Store (List Nat)
  polls : List PollCall
deriving DecidableEq

abbrev PollProg := Prog Fault Exn Polling

namespace Polling

variable (pl : Platform)

def sockets {α : Type} (m : SockProg α) : PollProg α :=
  Prog.zoom Polling.world (fun w s => { s with world := w }) m

def vector (v : Nat) : PollProg (List Nat) := do
  let s ← Prog.gets id
  Prog.demand (s.vectors.get v) .danglingPointer

/-- `sockets[i]` -/
def element (v i : Nat) : PollProg Nat := do
  let xs ← vector v
  Prog.demand xs[i]? .outOfBounds

/-- A call of `poll`, and the exception after it where it fails. -/
def poll (pfds : List Pollfd) (timeout : Int32) (answer : PollAnswer) : PollProg (List Pollfd) := do
  Prog.modify fun s => { s with polls := ⟨pfds, timeout⟩ :: s.polls }
  match answer with
  | .error errno => Prog.raise (sysErr pl errno)
  | .ok revents => pure (pfds.map fun pfd => { pfd with revents := revents pfd.fd pfd.events })

/-! ### One socket -/

/-- The body of `readReady` and `writeReady`. The count of the time-out is converted to the
type of the parameter of `poll`. -/
def ready (x events : Nat) (timeout : Int64) (answer : PollAnswer) : PollProg Bool := do
  let s ← sockets (World.this x)
  let pfds ← poll pl [⟨s.m_sockFD, events, 0⟩] timeout.toInt32 answer
  let pfd ← Prog.demand pfds.head? .outOfBounds
  pure (pfd.revents &&& events = events)

def writeReady (x : Nat) (timeout : Int64) (answer : PollAnswer) : PollProg Bool :=
  ready pl x pl.POLLOUT timeout answer

def readReady (x : Nat) (timeout : Int64) (answer : PollAnswer) : PollProg Bool :=
  ready pl x pl.POLLIN timeout answer

/-! ### Groups -/

/-- The first loop: an entry for each of the `n` elements from the index `i` on. -/
def pollstructs (v events : Nat) : Nat → Nat → List Pollfd → PollProg (List Pollfd)
  | 0, _, pfds => pure pfds
  | n + 1, i, pfds => do
    let x ← element v i
    let s ← sockets (World.this x)
    pollstructs v events n (i + 1) (pfds ++ [⟨s.m_sockFD, events, 0⟩])

/-- The second loop: the elements at the indices of the entries with all the events. -/
def readySockets (v events : Nat) : List Pollfd → Nat → List Nat → PollProg (List Nat)
  | [], _, ready => pure ready
  | pfd :: pfds, i, ready => do
    if pfd.revents &&& events = events then
      let x ← element v i
      readySockets v events pfds (i + 1) (ready ++ [x])
    else readySockets v events pfds (i + 1) ready

/-- The body of `readReadySockets` and `writeReadySockets`. -/
def groupReady (v events : Nat) (timeout : Int64) (answer : PollAnswer) : PollProg (List Nat) := do
  let sockets ← vector v
  let pfds ← pollstructs v events sockets.length 0 []
  let pfds ← poll pl pfds timeout.toInt32 answer
  readySockets v events pfds 0 []

def writeReadySockets (v : Nat) (timeout : Int64) (answer : PollAnswer) : PollProg (List Nat) :=
  groupReady pl v pl.POLLOUT timeout answer

def readReadySockets (v : Nat) (timeout : Int64) (answer : PollAnswer) : PollProg (List Nat) :=
  groupReady pl v pl.POLLIN timeout answer

end Polling

end SockLib
