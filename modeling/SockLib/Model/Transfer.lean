import SockLib.Model.Socket

/-!
# A connected stream

One direction of a connected pair of stream sockets is a FIFO queue of bytes. A call of
`send` at one end makes its system calls one at a time, and the other end receives in
between. A call in progress is kept as its arguments and the answers it has got so far:
run on these, the code of `send` asks for one more answer, returns, or throws.
-/

namespace SockLib

/-- A call of `socket::send` with default flags, made by a program in some state. -/
structure SendCall where
  program : World
  x : Nat
  data : List UInt8
  answers : List (Except Int Nat)

inductive SendStatus where
  | running | threw | returned
deriving DecidableEq

namespace SendCall

variable (pl : Platform) (c : SendCall)

/-- The code of `send`, run on the answers of the kernel. -/
def outcome : Outcome Fault Exn World Unit := World.send pl c.x c.data 0 c.answers c.program

def status : Option SendStatus :=
  match c.outcome pl with
  | .ok _ _ => some .returned
  | .throw _ _ => some .threw
  | .fault .noSuchAnswer => some .running
  | .fault _ => none

def answer (a : Except Int Nat) : SendCall := { c with answers := c.answers ++ [a] }

/-- The bytes that the system call in progress offers. They are in the record of the call
that is left when it fails. -/
def offered : Option (List UInt8) :=
  match (c.answer (.error 0)).outcome pl with
  | .throw _ s =>
    match s.kernel.calls with
    | .send _ piece _ :: _ => some piece
    | _ => none
  | _ => none

end SendCall

/-- The bytes on their way, whether the sending end is closed, the calls of `send` that have
ended and the one in progress, and the vectors that `receive` has returned. -/
structure Transfer where
  queue : List UInt8
  closed : Bool
  ended : List SendCall
  current : Option SendCall
  received : List (List UInt8)

/-- A call of `send` starts, its system call is answered, the other end receives, or the
sending end is closed. A receiving system call is answered with a number of bytes. -/
inductive TransferOp where
  | call (program : World) (x : Nat) (data : List UInt8)
  | transmit (answer : Except Int Nat)
  | receive (program : World) (y bufSize : Nat) (answer : Except Int Nat)
  | close

namespace Transfer

variable (pl : Platform)

def empty : Transfer := ⟨[], false, [], none, []⟩

/-- All calls of `send`, in the order they were made. -/
def calls (t : Transfer) : List SendCall := t.ended ++ t.current.toList

/-- A call goes on as its code says. -/
def proceed (t : Transfer) (c : SendCall) : Option Transfer :=
  match c.status pl with
  | some .running => some { t with current := some c }
  | some _ => some { t with ended := t.ended ++ [c], current := none }
  | none => none

def call (t : Transfer) (program : World) (x : Nat) (data : List UInt8) : Option Transfer :=
  match t.current with
  | some _ => none
  | none => t.proceed pl ⟨program, x, data, []⟩

/-- `::send` puts a non-empty prefix of what it is offered into the queue, or fails. After
the sending end is closed it can only fail. -/
def transmit (t : Transfer) (answer : Except Int Nat) : Option Transfer := do
  let c ← t.current
  let offered ← c.offered pl
  match answer with
  | .ok r =>
    if t.closed = false ∧ 0 < r ∧ r ≤ offered.length then
      proceed pl { t with queue := t.queue ++ offered.take r } (c.answer (.ok r))
    else none
  | .error e => t.proceed pl (c.answer (.error e))

/-- What the code of `receive` makes of the bytes it is given. -/
def deliver (t : Transfer) : Outcome Fault Exn World (List UInt8) → Option Transfer
  | .ok buffer _ => some { t with received := t.received ++ [buffer] }
  | .throw _ _ => some t
  | .fault _ => none

/-- `::recv` takes a non-empty prefix of the queue, or nothing when the queue is empty and
the other end is closed, or fails. -/
def receive (t : Transfer) (program : World) (y bufSize : Nat) (answer : Except Int Nat) :
    Option Transfer :=
  match answer with
  | .ok n =>
    if 0 < n ∧ n ≤ bufSize ∧ n ≤ t.queue.length ∨ n = 0 ∧ t.queue = [] ∧ t.closed = true then
      deliver { t with queue := t.queue.drop n }
        (World.receive pl y bufSize 0 (.ok (t.queue.take n)) program)
    else none
  | .error e => t.deliver (World.receive pl y bufSize 0 (.error e) program)

def step (t : Transfer) : TransferOp → Option Transfer
  | .call program x data => t.call pl program x data
  | .transmit answer => t.transmit pl answer
  | .receive program y bufSize answer =>
    if 0 < bufSize then t.receive pl program y bufSize answer else none
  | .close => some { t with closed := true }

end Transfer

end SockLib
