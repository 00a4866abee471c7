import SockLib.Model.Socket
import Mathlib.Logic.Function.Basic

/-!
# Time-outs of sockets

The time-outs of sending and receiving are socket options, set and read in microseconds. The
value of the option is a `timeval` of two 64-bit numbers, and on Windows a 32-bit number of
milliseconds. The kernel keeps its bytes as they are.
-/

namespace SockLib

namespace Platform

variable (pl : Platform)

def SOL_SOCKET : Int := if pl.windows then 0xffff else 1

def SO_SNDTIMEO : Int := if pl.windows then 0x1005 else 21

def SO_RCVTIMEO : Int := if pl.windows then 0x1006 else 20

/-- `sizeof(timeoutT)` -/
def sizeofTimeoutT : Nat := if pl.windows then 4 else 16

end Platform

/-- `timeoutT`: a `timeval`, or a `DWORD` in the Windows build. -/
inductive TimeoutT where
  | timeval (tv_sec tv_usec : Int64)
  | dword (ms : UInt32)
deriving DecidableEq

/-- The result of a signed 64-bit operation; `none` is an overflow. -/
def signed64 (v : Int) : Option Int64 :=
  if -2 ^ 63 ≤ v ∧ v < 2 ^ 63 then some (Int64.ofInt v) else none

/-- The count of milliseconds is converted to a `DWORD`, which keeps its low 32 bits. -/
def microsecondsToTimeoutT (pl : Platform) (us : Int64) : TimeoutT :=
  if pl.windows then .dword (us / 1000).toUInt64.toUInt32
  else .timeval (us / 1000000) (us % 1000000)

/-- The seconds are converted to microseconds in 64 bits. The product of a `DWORD` and an `int`
is a `DWORD`. -/
def timeoutTToMicroseconds : TimeoutT → Option Int64
  | .timeval tv_sec tv_usec => do
    let us ← signed64 (tv_sec.toInt * 1000000)
    signed64 (tv_usec.toInt + us.toInt)
  | .dword ms => some (ms * 1000).toUInt64.toInt64

namespace TimeoutT

variable (pl : Platform)

/-- The bytes of an option value in memory. -/
def bytes : TimeoutT → List UInt8
  | .timeval tv_sec tv_usec =>
    intBytes pl.bigEndian 8 tv_sec.toUInt64.toNat ++ intBytes pl.bigEndian 8 tv_usec.toUInt64.toNat
  | .dword ms => intBytes pl.bigEndian 4 ms.toNat

/-- The option value that a variable holds. -/
def ofMemory {n : Nat} (m : Memory n) : TimeoutT :=
  if pl.windows then .dword (UInt32.ofNat (intOfBytes pl.bigEndian (m.slice 0 4)))
  else .timeval (UInt64.ofNat (intOfBytes pl.bigEndian (m.slice 0 8))).toInt64
    (UInt64.ofNat (intOfBytes pl.bigEndian (m.slice 8 8))).toInt64

end TimeoutT

/-- `kept` is what the kernel keeps for a descriptor, a level and an option. -/
structure TimeoutWorld where
  world : World
  kept : Int × Int × Int → List UInt8

abbrev TimeoutProg := Prog Fault Exn TimeoutWorld

namespace TimeoutWorld

variable (pl : Platform)

def sockets {α : Type} (m : SockProg α) : TimeoutProg α :=
  Prog.zoom TimeoutWorld.world (fun w s => { s with world := w }) m

/-- The body of the two setters. -/
def setTimeout (option : Int) (x : Nat) (timeout : Int64) (answer : Except Int Unit) :
    TimeoutProg Unit := do
  let s ← sockets (World.this x)
  let tv := (microsecondsToTimeoutT pl timeout).bytes pl
  sockets (World.setOption pl x pl.SOL_SOCKET option tv answer)
  Prog.modify fun t =>
    { t with kept := Function.update t.kept (s.m_sockFD, pl.SOL_SOCKET, option) tv }

/-- The body of the two getters; `junk` is what their local variable held before. As many bytes
are copied into it as it has room for. -/
def getTimeout (option : Int) (x : Nat) (junk : Nat → UInt8) (answer : Except Int Unit) :
    TimeoutProg Int64 := do
  let s ← sockets (World.this x)
  let t ← Prog.gets id
  let tv := Memory.uninit pl.sizeofTimeoutT junk
  let copied := (t.kept (s.m_sockFD, pl.SOL_SOCKET, option)).take pl.sizeofTimeoutT
  let _ ← sockets (World.getOption pl x pl.SOL_SOCKET option (answer.map fun _ => copied))
  let tv ← Prog.demand (tv.store 0 copied) .outOfBounds
  Prog.demand (timeoutTToMicroseconds (TimeoutT.ofMemory pl tv)) .signedOverflow

/-- `sendTimeout(std::chrono::microseconds)` -/
def setSendTimeout (x : Nat) (timeout : Int64) (answer : Except Int Unit) : TimeoutProg Unit :=
  setTimeout pl pl.SO_SNDTIMEO x timeout answer

/-- `sendTimeout()` -/
def getSendTimeout (x : Nat) (junk : Nat → UInt8) (answer : Except Int Unit) :
    TimeoutProg Int64 :=
  getTimeout pl pl.SO_SNDTIMEO x junk answer

/-- `receiveTimeout(std::chrono::microseconds)` -/
def setReceiveTimeout (x : Nat) (timeout : Int64) (answer : Except Int Unit) : TimeoutProg Unit :=
  setTimeout pl pl.SO_RCVTIMEO x timeout answer

/-- `receiveTimeout()` -/
def getReceiveTimeout (x : Nat) (junk : Nat → UInt8) (answer : Except Int Unit) :
    TimeoutProg Int64 :=
  getTimeout pl pl.SO_RCVTIMEO x junk answer

end TimeoutWorld

/-- What a program does with the time-outs of its sockets. -/
inductive TimeoutOp where
  | setSendTimeout (x : Nat) (timeout : Int64) (answer : Except Int Unit)
  | getSendTimeout (x : Nat) (junk : Nat → UInt8) (answer : Except Int Unit)
  | setReceiveTimeout (x : Nat) (timeout : Int64) (answer : Except Int Unit)
  | getReceiveTimeout (x : Nat) (junk : Nat → UInt8) (answer : Except Int Unit)

namespace TimeoutOp

variable (pl : Platform)

def exec : TimeoutOp → TimeoutProg Unit
  | .setSendTimeout x timeout answer => TimeoutWorld.setSendTimeout pl x timeout answer
  | .getSendTimeout x junk answer => discard (TimeoutWorld.getSendTimeout pl x junk answer)
  | .setReceiveTimeout x timeout answer => TimeoutWorld.setReceiveTimeout pl x timeout answer
  | .getReceiveTimeout x junk answer => discard (TimeoutWorld.getReceiveTimeout pl x junk answer)

/-- The state the program goes on from; an exception is caught by the caller. -/
def step (s : TimeoutWorld) (op : TimeoutOp) : Option TimeoutWorld := (op.exec pl s).resume

end TimeoutOp

end SockLib
