import SockLib.Model.Socket

/-!
# Sockets in a vector

The echo server keeps its clients in a `std::vector`. It pushes back what `accept` returns, and
when a client is gone it erases what `std::remove` leaves behind. A vector is the list of its
elements, each an object in its place. `std::remove` compares with `==` and closes the gap by
move assignments; the value it is given may itself be one of the elements.
-/

namespace SockLib

namespace World

variable (pl : Platform)

/-- The elements before the first one that equals the value, and the others. -/
def find (value : Nat) : List Nat → SockProg (List Nat × List Nat)
  | [] => pure ([], [])
  | x :: xs => do
    if ← equals x value then pure ([], x :: xs)
    else
      let (before, rest) ← find value xs
      pure (x :: before, rest)

/-- The loop of `std::remove`. The gap begins at `first`; what is kept moves to its beginning.
Returned are the elements that are kept and those that are left behind. -/
def shift (value first : Nat) (gap : List Nat) : List Nat → SockProg (List Nat × List Nat)
  | [] => pure ([], first :: gap)
  | x :: xs => do
    if ← equals x value then shift value first (gap ++ [x]) xs
    else
      moveAssign first x
      let (kept, left) ← match gap with
        | [] => shift value x [] xs
        | next :: gap => shift value next (gap ++ [x]) xs
      pure (first :: kept, left)

/-- `std::remove` over a whole vector. -/
def remove (value : Nat) (xs : List Nat) : SockProg (List Nat × List Nat) := do
  let (before, rest) ← find value xs
  match rest with
  | [] => pure (before, [])
  | x :: rest =>
    let (kept, left) ← shift value x [] rest
    pure (before ++ kept, left)

def destroyAll (names : Nat → NameAnswer) : List Nat → SockProg Unit
  | [] => pure ()
  | x :: xs => do
    destroy pl x (names x)
    destroyAll names xs

/-- `xs.erase(std::remove(xs.begin(), xs.end(), value), xs.end())` -/
def eraseRemove (value : Nat) (xs : List Nat) (names : Nat → NameAnswer) :
    SockProg (List Nat) := do
  let (kept, left) ← remove value xs
  destroyAll pl names left
  pure kept

def moveAll (junk : Nat → Socket) : List Nat → SockProg (List Nat)
  | [] => pure []
  | x :: xs => do
    let y ← moveConstruct x (junk x)
    let ys ← moveAll junk xs
    pure (y :: ys)

/-- `push_back` of an object that is moved from. A vector that is full goes to another place, and
its elements are moved, because sockets cannot be copied. -/
def pushBack (xs : List Nat) (y : Nat) (full : Bool) (junk : Nat → Socket)
    (names : Nat → NameAnswer) : SockProg (List Nat) := do
  let x ← moveConstruct y (junk y)
  if full then
    let ys ← moveAll junk xs
    destroyAll pl names xs
    pure (ys ++ [x])
  else pure (xs ++ [x])

end World

/-- A program with a vector of sockets. -/
structure SocketVector where
  program : World
  elements : List Nat

inductive VectorOp where
  | program (op : ProgramOp)
  | pushBack (y : Nat) (full : Bool) (junk : Nat → Socket) (names : Nat → NameAnswer)
  | erase (value : Nat) (names : Nat → NameAnswer)

/-- The vector after an operation on it that has returned its elements. -/
def Outcome.vector : Outcome Fault Exn World (List Nat) → Option SocketVector
  | .ok elements program => some ⟨program, elements⟩
  | _ => none

def VectorOp.step (pl : Platform) (n : SocketVector) : VectorOp → Option SocketVector
  | .program op => (op.step pl n.program).map fun program => { n with program }
  | .pushBack y full junk names =>
    (World.pushBack pl n.elements y full junk names (SocketOp.start n.program)).vector
  | .erase value names =>
    (World.eraseRemove pl value n.elements names (SocketOp.start n.program)).vector

end SockLib
