import SockLib.Foundation.Outcome
import SockLib.Model.Platform

/-!
# Initialization of the network library

`initializeLibrary` (`initialize` in the source) and `deinitializeLibrary` count the users of
the system library. On Windows the first user starts it up and the last one cleans it up;
both calls may fail.
-/

namespace SockLib

/-- The counter `libraryUsers` with the switch `autoInitialize`, and how often the branches
that start and clean up the system library have been entered. `libraryUsers` is a `size_t`:
decrementing it at zero wraps around, and `underflows` counts how often. -/
structure Library where
  autoInitialize : Bool := true
  libraryUsers : Nat := 0
  startups : Nat := 0
  cleanups : Nat := 0
  underflows : Nat := 0
deriving DecidableEq, Repr

/-- `--` on a `size_t`. -/
def sizeDec (n : Nat) : Nat := if n = 0 then 2 ^ 64 - 1 else n - 1

variable (pl : Platform)

def initializeLibrary : Prog Fault Exn Library Unit := do
  let l ← Prog.gets id
  if l.libraryUsers = 0 then
    Prog.modify fun l => { l with startups := l.startups + 1 }
    if pl.windows ∧ pl.WSAStartup l.startups ≠ 0 then
      Prog.raise (sysErr pl (pl.WSAStartup l.startups))
  Prog.modify fun l => { l with libraryUsers := l.libraryUsers + 1 }

def deinitializeLibrary : Prog Fault Exn Library Unit := do
  Prog.modify fun l => { l with
    libraryUsers := sizeDec l.libraryUsers
    underflows := if l.libraryUsers = 0 then l.underflows + 1 else l.underflows }
  let l ← Prog.gets id
  if l.libraryUsers = 0 then
    Prog.modify fun l => { l with cleanups := l.cleanups + 1 }
    if pl.windows ∧ pl.WSACleanup l.cleanups ≠ 0 then
      Prog.raise (sysErr pl (pl.WSACleanup l.cleanups))

/-- `if (autoInitialize) initialize();` -/
def autoInitializeLibrary : Prog Fault Exn Library Unit := do
  let l ← Prog.gets id
  if l.autoInitialize then initializeLibrary pl

/-- `if (autoInitialize) deinitialize();` -/
def autoDeinitializeLibrary : Prog Fault Exn Library Unit := do
  let l ← Prog.gets id
  if l.autoInitialize then deinitializeLibrary pl

end SockLib
