import SockLib.Model.Socket

/-!
# Buffers of the caller

The overloads of `send` and `receive` that take a pointer and a length. The pointer is to
memory of the caller, and only the bytes that are there may be read or written.
-/

namespace SockLib

namespace World

variable (pl : Platform)

/-- The `n` bytes at `data + off`. -/
def readBuffer (data : List UInt8) (off n : Nat) : SockProg (List UInt8) :=
  Prog.demand (if off + n ≤ data.length then some ((data.drop off).take n) else none) .outOfBounds

/-- What a system call writes to the start of a buffer. -/
def writeBuffer (buf bytes : List UInt8) : SockProg (List UInt8) :=
  Prog.demand (if bytes.length ≤ buf.length then some (bytes ++ buf.drop bytes.length) else none)
    .outOfBounds

/-- The loop of both kinds of `send`. -/
def sendBufferLoop (x : Nat) (call : Int → List UInt8 → Call) (data : List UInt8) (len : Nat) :
    Nat → List (Except Int Nat) → SockProg Unit
  | sent, [] => if sent < len then Prog.undefined .noSuchAnswer else pure ()
  | sent, answer :: answers =>
    if sent < len then do
      let piece ← readBuffer data sent (pl.callLength (len - sent))
      let r ← request pl x (fun fd => call fd piece) answer
      sendBufferLoop x call data len (sent + r) answers
    else pure ()

def sendBuffer (x : Nat) (data : List UInt8) (len flags : Nat) (answers : List (Except Int Nat)) :
    SockProg Unit :=
  sendBufferLoop pl x (fun fd piece => .send fd piece (flags ||| pl.MSG_NOSIGNAL)) data len 0
    answers

def sendBufferTo (x : Nat) (data : List UInt8) (len : Nat) (toAddr : SockaddrStorage)
    (addrLen flags : Nat) (answers : List (Except Int Nat)) : SockProg Unit :=
  sendBufferLoop pl x (fun fd piece => .sendto fd piece (flags ||| pl.MSG_NOSIGNAL) toAddr addrLen)
    data len 0 answers

def sendBufferAddress (x : Nat) (data : List UInt8) (len : Nat) (fr : Frame) (to_ flags : Nat)
    (answers : List (Except Int Nat)) : SockProg Unit := do
  let addr ← addresses (Addresses.toSockaddrStorage pl fr to_)
  let n ← addresses (Addresses.size to_)
  sendBufferTo pl x data len addr n flags answers

/-- `receive(address&, uint8_t*, ...)`: the number of bytes reported and the buffer after it,
to which no more than fits has been written. -/
def receiveFromBuffer (x from_ : Nat) (buf : List UInt8) (bufSize flags : Nat)
    (answer : Except Int (List UInt8 × SockaddrStorage × Nat)) : SockProg (Nat × List UInt8) := do
  let (payload, addr, addrLen) ← receiveRaw pl x bufSize flags answer
  let buf ← writeBuffer buf (payload.take bufSize)
  addresses do
    let tmp ← Addresses.ofStorage pl addr addrLen
    Addresses.moveAssign from_ tmp
    Addresses.destroy pl tmp
  pure (payload.length, buf)

end World

end SockLib
