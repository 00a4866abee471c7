import SockLib.Model.Socket

/-!
# Socket options

The two overloads of `socketOption` for flags and for numbers. The setters pass a four-byte
integer, which the kernel keeps as it is. The getters pass the address of a local variable and
of a local length, neither of which they have initialised; what the two hold is an argument.
-/

namespace SockLib

inductive BoolOption where
  | debug
  | broadcast
  | reuseAddr
  | keepAlive
  | outOfBandInLine
  | dontRoute
deriving DecidableEq

inductive IntOption where
  | sendBufferSize
  | receiveBufferSize
  | receiveLowWaterMark
  | sendLowWaterMark
deriving DecidableEq

/-- The value of an enumerator, a macro of the system. -/
def BoolOption.value (pl : Platform) : BoolOption → Int
  | .debug => 1
  | .broadcast => if pl.windows then 0x20 else 6
  | .reuseAddr => if pl.windows then 0x4 else 2
  | .keepAlive => if pl.windows then 0x8 else 9
  | .outOfBandInLine => if pl.windows then 0x100 else 10
  | .dontRoute => if pl.windows then 0x10 else 5

/-- The value of an enumerator, a macro of the system. -/
def IntOption.value (pl : Platform) : IntOption → Int
  | .sendBufferSize => if pl.windows then 0x1001 else 7
  | .receiveBufferSize => if pl.windows then 0x1002 else 8
  | .receiveLowWaterMark => if pl.windows then 0x1004 else 18
  | .sendLowWaterMark => if pl.windows then 0x1003 else 19

/-- The bytes of an `int` in memory. -/
def int32Bytes (pl : Platform) (v : Int32) : Memory 4 :=
  ⟨intBytes pl.bigEndian 4 v.toUInt32.toNat, length_intBytes _ _ _⟩

/-- The `int` that four bytes hold. -/
def int32OfBytes (pl : Platform) (m : Memory 4) : Int32 :=
  (UInt32.ofNat (intOfBytes pl.bigEndian m.toList)).toInt32

/-- The `bool` that a byte holds; there is none for a byte other than zero and one. -/
def boolOfByte (b : UInt8) : Option Bool :=
  if b = 0 then some false
  else if b = 1 then some true
  else none

/-- What the kernel keeps for the options of a descriptor: by its number, the level and the
option. -/
abbrev KeptOptions := Int → Int → Int → Memory 4

structure OptionWorld where
  world : World
  kept : KeptOptions

abbrev OptionProg := Prog Fault Exn OptionWorld

namespace OptionWorld

variable (pl : Platform)

def sockets {α : Type} (m : SockProg α) : OptionProg α :=
  Prog.zoom OptionWorld.world (fun w s => { s with world := w }) m

def keep (kept : KeptOptions) (fd level option : Int) (value : Memory 4) : KeptOptions :=
  fun fd' level' option' =>
    if fd' = fd ∧ level' = level ∧ option' = option then value else kept fd' level' option'

/-- `setsockopt` with a four-byte integer. -/
def setsockopt (x : Nat) (level option : Int) (value : Memory 4) (answer : Except Int Unit) :
    OptionProg Unit := do
  let s ← sockets (World.this x)
  sockets (World.setOption pl x level option value.toList answer)
  Prog.modify fun t => { t with kept := keep t.kept s.m_sockFD level option value }

/-- `getsockopt` into a variable of `n` bytes: it copies as many bytes of the option as `len`
allows, whether there is room for them or not. -/
def getsockopt {n : Nat} (x : Nat) (level option : Int) (value : Memory n) (len : UInt32)
    (answer : Except Int Unit) : OptionProg (Memory n) := do
  let s ← sockets (World.this x)
  let t ← Prog.gets id
  let copied := (t.kept s.m_sockFD level option).slice 0 (min len.toNat 4)
  let _ ← sockets (World.getOption pl x level option (answer.map fun _ => copied))
  Prog.demand (value.store 0 copied) .outOfBounds

/-- `socketOption(boolOption, bool, optionLevel)`: the flag is converted to an `int`. -/
def setBoolOption (x : Nat) (option : BoolOption) (value : Bool) (level : Int)
    (answer : Except Int Unit) : OptionProg Unit :=
  let boolConv : Int32 := if value then 1 else 0
  setsockopt pl x level (option.value pl) (int32Bytes pl boolConv) answer

/-- `socketOption(boolOption, optionLevel)`; `value` and `len` are what its locals hold. -/
def getBoolOption (x : Nat) (option : BoolOption) (level : Int) (value : Memory 1) (len : UInt32)
    (answer : Except Int Unit) : OptionProg Bool := do
  let value ← getsockopt pl x level (option.value pl) value len answer
  Prog.demand (boolOfByte value.head) .typeConfusion

/-- `socketOption(intOption, int, optionLevel)` -/
def setIntOption (x : Nat) (option : IntOption) (value : Int32) (level : Int)
    (answer : Except Int Unit) : OptionProg Unit :=
  setsockopt pl x level (option.value pl) (int32Bytes pl value) answer

/-- `socketOption(intOption, optionLevel)`; `value` and `len` are what its locals hold. -/
def getIntOption (x : Nat) (option : IntOption) (level : Int) (value : Memory 4) (len : UInt32)
    (answer : Except Int Unit) : OptionProg Int32 := do
  let value ← getsockopt pl x level (option.value pl) value len answer
  pure (int32OfBytes pl value)

end OptionWorld

end SockLib
