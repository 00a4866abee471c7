import Mathlib.Logic.Function.Basic
import SockLib.Proofs.Copies
import SockLib.Proofs.Ordering

/-!
# Addresses as values

What `sks::address` is for. A variable holds a value: an address of one of the three classes,
or no more than a domain. Operations replace values. There are no pointers here, no
heap, and no bytes that were never written.
-/

namespace SockLib

inductive AddressValue where
  | blank (domain : Nat)
  | set (o : AddressObject)
deriving DecidableEq

instance (pl : Platform) (o : AddressObject) : Decidable (o.Fits pl) :=
  match o with
  | .ipv4 _ => isTrue fun _ h => by cases h
  | .ipv6 _ => isTrue fun _ h => by cases h
  | .unix a => decidable_of_iff (a.m_addr.length < pl.sunPathSize ∧ a.size ≤ 128) (by
      simp [AddressObject.Fits])

namespace AddressObject

variable (pl : Platform)

/-- The same address under another name. A unix address is named by its path. -/
def withName (o : AddressObject) (name : List UInt8) : AddressObject :=
  match o with
  | .ipv4 a => .ipv4 { a with m_name := name }
  | .ipv6 a => .ipv6 { a with m_name := name }
  | .unix a => .unix a

/-- The same address under the name that its fields compose. -/
def recomposed (o : AddressObject) : AddressObject :=
  match o.decodedName pl with
  | .ok name => o.withName name
  | .error _ => o

/-- The object that a string denotes. Without a family it is read as IPv6 and then as IPv4. -/
def parse (addrstr : List UInt8) (d : Nat) : Option AddressObject :=
  match pl.familyOf d with
  | some f => (ofString pl f addrstr).toOption
  | none => (ofString pl .IPv6 addrstr).toOption <|> (ofString pl .IPv4 addrstr).toOption

end AddressObject

namespace AddressValue

variable (pl : Platform)

def domain : AddressValue → Nat
  | .blank d => d
  | .set o => pl.domainOf o.family

def size : AddressValue → Nat
  | .blank _ => 0
  | .set o => o.size

/-- Values are compared by their domains first. A blank one precedes all others of its domain. -/
def sortKey (v : AddressValue) : ℕ ×ₗ WithBot (List ℤ ×ₗ ℕ) :=
  toLex (v.domain pl, match v with
    | .blank _ => ⊥
    | .set o => (o.sortKey pl : WithBot (List ℤ ×ₗ ℕ)))

/-- The value of a copy; `none` where the C structure has no room for the original. -/
def copied : AddressValue → Option AddressValue
  | .blank d => some (.blank d)
  | .set o => if o.Fits pl then some (.set (o.recomposed pl)) else none

end AddressValue

/-- The values of all variables. Those from `next` on have not been made yet. -/
@[ext] structure AddressValues where
  next : Nat
  value : Nat → Option AddressValue

/-- The operations of `AddressOp`, without what the locals of the casts hold. -/
inductive ValueOp where
  | default
  | ofString (addrstr : List UInt8) (d : Nat)
  | ofStorage (from_ : SockaddrStorage) (len : Nat)
  | ofBase (o : AddressObject)
  | copy (y : Nat)
  | move (y : Nat)
  | copyAssign (x y : Nat)
  | moveAssign (x y : Nat)
  | assign (x : Nat) (from_ : SockaddrStorage) (len : Nat)
  | destroy (x : Nat)

namespace AddressValues

def empty : AddressValues := ⟨0, fun _ => none⟩

def make (t : AddressValues) (v : AddressValue) : AddressValues :=
  ⟨t.next + 1, Function.update t.value t.next (some v)⟩

/-- A constructor has thrown; its variable never comes to be. -/
def skip (t : AddressValues) : AddressValues := ⟨t.next + 1, t.value⟩

def assign (t : AddressValues) (x : Nat) (v : AddressValue) : AddressValues :=
  ⟨t.next, Function.update t.value x (some v)⟩

def drop (t : AddressValues) (x : Nat) : AddressValues :=
  ⟨t.next, Function.update t.value x none⟩

end AddressValues

namespace ValueOp

variable (pl : Platform)

/-- The values after an operation. There are none where a variable does not exist, where a C
structure has no room, and where a set address would be assigned nothing to take its place. -/
def step (t : AddressValues) : ValueOp → Option AddressValues
  | .default => some (t.make (.blank 0xFF))
  | .ofString addrstr d =>
    match AddressObject.parse pl addrstr d with
    | some o => some (t.make (.set o))
    | none => some t.skip
  | .ofStorage st len =>
    match decode pl st len with
    | some (.ok o) => some (t.make (.set o))
    | some (.error _) => some t.skip
    | none => none
  | .ofBase o => ((AddressValue.set o).copied pl).map t.make
  | .copy y => (t.value y).bind fun v => (v.copied pl).map t.make
  | .move y => (t.value y).map fun v => (t.make v).assign y (.blank (v.domain pl))
  | .copyAssign x y =>
    match t.value x, t.value y with
    | some (.set _), some (.blank _) => none
    | some _, some v => (v.copied pl).map (t.assign x)
    | _, _ => none
  | .moveAssign x y =>
    match t.value x, t.value y with
    | some _, some v => some ((t.assign x v).assign y (.blank (v.domain pl)))
    | _, _ => none
  | .assign x st len =>
    match t.value x, decode pl st len with
    | some _, some (.ok o) => some (t.assign x (.set o))
    | some (.blank _), some (.error _) => some (t.assign x (.blank (ssFamily pl st)))
    | _, _ => none
  | .destroy x => (t.value x).map fun _ => t.drop x

end ValueOp

end SockLib
