import SockLib.Proofs.DescriptorUse

/-!
# What members leave alone

Members of a socket make system calls and addresses. What neither of them changes is left
alone by every member, unless it binds or replaces an address.
-/

namespace SockLib

def Member.binds : Member → Bool
  | .bind .. => true
  | .bindAddress .. => true
  | _ => false

/-- The address that is replaced. -/
def Member.fills : Member → Option Nat
  | .receiveFrom from_ .. => some from_
  | _ => none

namespace World

variable {pl : Platform} {s : World} {P : World → Prop} {α : Type}

/-- The property is kept when a call is recorded, and when an address is made. -/
structure Steady (pl : Platform) (P : World → Prop) : Prop where
  called : ∀ s c, P s → P (s.called c)
  made : ∀ s st len, P s → Prog.wp (addresses (Addresses.ofStorage pl st len)) (fun _ => P)
    (fun _ => P) (fun _ => True) s

/-- What does not depend on the addresses is kept by all that is done with them. -/
lemma addresses_steady (haddr : ∀ s a, P s → P { s with addr := a }) (hs : P s)
    (m : AddrProg α) : Prog.wp (addresses m) (fun _ => P) (fun _ => P) (fun _ => True) s :=
  addresses_keep fun a => haddr s a hs

lemma Steady.of_addr (hcalled : ∀ s c, P s → P (s.called c))
    (haddr : ∀ s a, P s → P { s with addr := a }) : Steady pl P where
  called := hcalled
  made _ _ _ hs := addresses_steady haddr hs _

lemma request_steady (hP : Steady pl P) (hs : P s) (x : Nat) (call : Int → Call)
    (answer : Except Int α) :
    Prog.wp (request pl x call answer) (fun _ => P) (fun _ => P) (fun _ => True) s := by
  apply wp_of_this
  intro v hx
  exact (wp_request hx).mpr ⟨fun _ _ => hP.called s _ hs, fun _ _ => hP.called s _ hs⟩

/-- A system call, and then what is made of its answer. -/
lemma request_bind_steady (hP : Steady pl P) (hs : P s) (x : Nat) (call : Int → Call)
    (answer : Except Int α) {β : Type} {m : α → SockProg β}
    (hm : ∀ a t, P t → Prog.wp (m a) (fun _ => P) (fun _ => P) (fun _ => True) t) :
    Prog.wp (request pl x call answer >>= m) (fun _ => P) (fun _ => P) (fun _ => True) s := by
  rw [Prog.wp_bind]
  apply Prog.wp_mono (request_steady hP hs x call answer)
  · intro a t ht
    exact hm a t ht
  · intro _ _ ht
    exact ht
  · intro _ h
    exact h

lemma sendLoop_steady (hP : Steady pl P) (hs : P s) (x : Nat) (call : Int → List UInt8 → Call)
    (data : List UInt8) (sent : Nat) (answers : List (Except Int Nat)) :
    Prog.wp (sendLoop pl x call data sent answers) (fun _ => P) (fun _ => P) (fun _ => True) s := by
  induction answers generalizing s sent with
  | nil =>
    rw [sendLoop, Prog.wp_ite]
    split
    · trivial
    · exact hs
  | cons answer answers ih =>
    rw [sendLoop, Prog.wp_ite]
    split
    · apply request_bind_steady hP hs
      intro r t ht
      exact ih ht (sent + r)
    · exact hs

/-- Members that bind nothing and fill no variable do nothing else. -/
lemma member_steady (hP : Steady pl P) (hs : P s) (x : Nat) (m : Member) (hm : m.binds = false)
    (hfills : ∀ y, m.fills = some y → ∀ s a, P s → P { s with addr := a }) :
    Prog.wp (m.exec pl x) (fun _ => P) (fun _ => P) (fun _ => True) s := by
  cases m with
  | bind address len answer => cases hm
  | bindAddress fr address answer => cases hm
  | listen backlog answer =>
    rw [Member.exec, listen]
    exact request_steady hP hs x _ answer
  | connect address len answer =>
    rw [Member.exec, connect]
    exact request_steady hP hs x _ answer
  | connectAddress fr address answer =>
    apply ofAddress_spec
    intro _ _ _ st _ _ _ _ len
    exact request_steady hP hs x _ answer
  | send data flags answers => exact sendLoop_steady hP hs x _ data 0 answers
  | sendTo data toAddr addrLen flags answers => exact sendLoop_steady hP hs x _ data 0 answers
  | sendAddress data fr to_ flags answers =>
    apply ofAddress_spec
    intro _ _ _ st _ _ _ _ len
    exact sendLoop_steady hP hs x _ data 0 answers
  | receive bufSize flags answer =>
    apply wp_discard.mpr
    apply request_bind_steady hP hs
    intro payload t ht
    exact ht
  | receiveRaw bufSize flags answer => exact wp_discard.mpr (request_steady hP hs x _ answer)
  | receiveFrom from_ bufSize flags answer =>
    apply wp_discard.mpr
    apply request_bind_steady hP hs
    rintro ⟨payload, addr, addrLen⟩ t ht
    rw [Prog.wp_bind]
    exact addresses_steady (hfills from_ rfl) ht _
  | setOption level option value answer =>
    rw [Member.exec, setOption]
    exact request_steady hP hs x _ answer
  | getOption level option answer => exact wp_discard.mpr (request_steady hP hs x _ answer)
  | ready events timeout answer =>
    apply wp_discard.mpr
    exact request_bind_steady hP hs x _ answer fun _ _ ht => ht
  | bytesReady answer => exact wp_discard.mpr (request_steady hP hs x _ answer)
  | connectedAddress answer =>
    apply wp_discard.mpr
    exact request_bind_steady hP hs x _ answer fun r t ht => hP.made t r.1 r.2 ht
  | localAddress answer =>
    apply wp_discard.mpr
    exact request_bind_steady hP hs x _ answer fun r t ht => hP.made t r.1 r.2 ht

end World

end SockLib
