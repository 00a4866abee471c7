import SockLib.Model.NumericHost
import SockLib.Proofs.Descriptors

/-!
# Use of descriptors

A member call should work on a descriptor that its object owns, and fail on an object that
owns none. It does exactly when it is made on an object with `m_validFD`, or is a `bind` that
is turned down before the kernel is asked.
-/

namespace SockLib

variable (pl : Platform)

/-- The object a system call on a descriptor would be made for. -/
def SocketOp.object : SocketOp → Option Nat
  | .accept x _ => some x
  | .destroy x _ => some x
  | .member x _ => some x
  | _ => none

def SocketOp.isDestroy : SocketOp → Bool
  | .destroy .. => true
  | _ => false

/-- The object owns the open descriptor with this number, alone. -/
def OwnsNumber (s : World) (x : Nat) (n : Int) : Prop :=
  Owner s.socks x n ∧ (∃ i, s.kernel.lookup n = some i) ∧ ∀ y, Owner s.socks y n → y = x

/-- Every descriptor handed to a system call is one that the object owns, and without one a
call throws. A destructor has nothing to report, and makes no call then. -/
def RespectsOwnership (s : World) (op : SocketOp) : Prop :=
  ∀ t, (op.exec pl (SocketOp.start s)).resume = some t →
    (∀ c ∈ t.kernel.calls, ∀ n, c.descriptor = some n →
      ∃ x, op.object = some x ∧ OwnsNumber s x n) ∧
    ∀ x, op.object = some x → (∀ n, ¬Owner s.socks x n) →
      op.isDestroy = true ∨ ∃ e, op.exec pl (SocketOp.start s) = .throw e t

/-- The call is turned down because of the family of its address. -/
def Rejected (s : World) (v : Socket) : Member → Prop
  | .bind address _ _ => ssFamily pl address ≠ v.m_domain
  | .bindAddress fr address _ => ∀ a p o st, s.addr.vars.get address = some a →
    a.base = some p → s.addr.heap.get p = some o → o.toSockaddrStorage pl fr = some st →
    ssFamily pl st ≠ v.m_domain
  | _ => False

/-- The condition on a single operation: a member is called on an object with `m_validFD`. -/
def OnOwner (s : World) : SocketOp → Prop
  | .accept x _ => ∀ v, s.socks.get x = some v → v.m_validFD = true
  | .member x m => ∀ v, s.socks.get x = some v → v.m_validFD = true ∨ Rejected pl s v m
  | _ => True

variable {pl} {s t : World} {x : Nat} {v : Socket}

/-- A system call has been made on this number. -/
def Used (n : Int) (t : World) : Prop := ∃ c ∈ t.kernel.calls, c.descriptor = some n

namespace World

variable {α : Type}

lemma addresses_keep {m : AddrProg α} {P : World → Prop} (h : ∀ a, P { s with addr := a }) :
    Prog.wp (addresses m) (fun _ => P) (fun _ => P) (fun _ => True) s := by
  rw [wp_addresses]
  unfold Prog.wp
  cases m s.addr with
  | ok a t => exact h t
  | throw e t => exact h t
  | fault k => trivial

lemma used_called {c : Call} {n : Int} (hc : c.descriptor = some n) : Used n (s.called c) :=
  ⟨c, List.mem_cons_self, hc⟩

lemma request_uses (hx : s.socks.get x = some v) {call : Int → Call} {answer : Except Int α}
    (hc : ∀ fd, (call fd).descriptor = some fd) :
    Prog.wp (request pl x call answer) (fun _ _ => True) (fun _ => Used v.m_sockFD)
      (fun _ => True) s := by
  rw [wp_request hx]
  exact ⟨fun _ _ => trivial, fun _ _ => used_called (hc _)⟩

/-- A call that throws has been made on the number of the object. -/
lemma sendLoop_uses (hx : s.socks.get x = some v) {call : Int → List UInt8 → Call}
    (hc : ∀ fd piece, (call fd piece).descriptor = some fd) (data : List UInt8) (sent : Nat)
    (answers : List (Except Int Nat)) :
    Prog.wp (sendLoop pl x call data sent answers) (fun _ _ => True)
      (fun _ => Used v.m_sockFD) (fun _ => True) s := by
  induction answers generalizing sent s with
  | nil =>
    rw [sendLoop, Prog.wp_ite]
    split <;> trivial
  | cons answer answers ih =>
    rw [sendLoop, Prog.wp_ite]
    split
    · rw [Prog.wp_bind, wp_request hx]
      exact ⟨fun r _ => ih (s := s.called _) hx (sent + r), fun _ _ => used_called (hc _ _)⟩
    · trivial

lemma bind_uses (hx : s.socks.get x = some v) {address : SockaddrStorage} {len : Nat}
    {answer : Except Int Unit} (hd : ssFamily pl address = v.m_domain) :
    Prog.wp (bind pl x address len answer) (fun _ _ => True) (fun _ => Used v.m_sockFD)
      (fun _ => True) s := by
  rw [bind, Prog.wp_bind, wp_this hx]
  simp only [hd, ne_eq, not_true_eq_false, if_false, Prog.wp_bind]
  rw [wp_request hx]
  refine ⟨fun _ _ => ?_, fun _ _ => used_called rfl⟩
  rw [wp_kernelStep]
  exact ⟨fun _ _ => trivial, fun _ => trivial⟩

lemma bind_rejects (hx : s.socks.get x = some v) {address : SockaddrStorage} {len : Nat}
    {answer : Except Int Unit} (hd : ssFamily pl address ≠ v.m_domain) :
    Prog.wp (bind pl x address len answer) (fun _ _ => False) (fun _ t => t = s)
      (fun _ => True) s := by
  rw [bind, Prog.wp_bind, wp_this hx]
  simp [hd]

lemma receive_uses (hx : s.socks.get x = some v) (bufSize flags : Nat)
    (answer : Except Int (List UInt8)) :
    Prog.wp (receive pl x bufSize flags answer) (fun _ _ => True) (fun _ => Used v.m_sockFD)
      (fun _ => True) s := by
  rw [receive, Prog.wp_bind, wp_request hx]
  exact ⟨fun _ _ => trivial, fun _ _ => used_called rfl⟩

/-- What is done with the addresses after a call leaves its record. -/
lemma addresses_uses {m : AddrProg α} {c : Call} (hc : c.descriptor = some v.m_sockFD) :
    Prog.wp (addresses m) (fun _ _ => True) (fun _ => Used v.m_sockFD) (fun _ => True)
      (s.called c) := by
  apply Prog.wp_mono (addresses_keep fun a => used_called (s := { s with addr := a }) hc)
  · intro _ _ _
    trivial
  · intro _ _ h
    exact h
  · intro _ h
    exact h

lemma receiveFrom_uses (hx : s.socks.get x = some v) (from_ bufSize flags : Nat)
    (answer : Except Int (List UInt8 × SockaddrStorage × Nat)) :
    Prog.wp (receiveFrom pl x from_ bufSize flags answer) (fun _ _ => True)
      (fun _ => Used v.m_sockFD) (fun _ => True) s := by
  rw [receiveFrom, Prog.wp_bind, receiveRaw, wp_request hx]
  refine ⟨fun r _ => ?_, fun _ _ => used_called rfl⟩
  obtain ⟨payload, addr, addrLen⟩ := r
  rw [Prog.wp_bind]
  exact addresses_uses rfl

/-- Asking for an address and making an object of it. -/
lemma nameRequest_uses (hx : s.socks.get x = some v) {call : Int → Call} {answer : NameAnswer}
    (hc : ∀ fd, (call fd).descriptor = some fd) {f : SockaddrStorage × Nat → AddrProg α} :
    Prog.wp (request pl x call answer >>= fun sa => addresses (f sa)) (fun _ _ => True)
      (fun _ => Used v.m_sockFD) (fun _ => True) s := by
  rw [Prog.wp_bind, wp_request hx]
  exact ⟨fun _ _ => addresses_uses (hc _), fun _ _ => used_called (hc _)⟩

/-- A member call that throws has worked on the number of its object, or was rejected. -/
lemma member_uses (hx : s.socks.get x = some v) (m : Member) (hr : ¬Rejected pl s v m) :
    Prog.wp (m.exec pl x) (fun _ _ => True) (fun _ => Used v.m_sockFD) (fun _ => True) s := by
  cases m with
  | bind address len answer => exact bind_uses hx (not_not.mp hr)
  | bindAddress fr address answer =>
    apply ofAddress_spec
    intro a p o st ha hp ho hst len
    apply bind_uses hx
    by_contra hd
    apply hr
    intro a' p' o' st' ha' hp' ho' hst'
    rw [ha] at ha'
    cases ha'
    rw [hp] at hp'
    cases hp'
    rw [ho] at ho'
    cases ho'
    rw [hst] at hst'
    cases hst'
    exact hd
  | listen backlog answer =>
    rw [Member.exec, listen]
    apply request_uses hx
    exact fun _ => rfl
  | connect address len answer =>
    rw [Member.exec, connect]
    apply request_uses hx
    exact fun _ => rfl
  | connectAddress fr address answer =>
    apply ofAddress_spec
    intro a p o st _ _ _ _ len
    rw [connect]
    apply request_uses hx
    exact fun _ => rfl
  | send data flags answers => exact sendLoop_uses hx (fun _ _ => rfl) data 0 answers
  | sendTo data toAddr addrLen flags answers =>
    exact sendLoop_uses hx (fun _ _ => rfl) data 0 answers
  | sendAddress data fr to_ flags answers =>
    apply ofAddress_spec
    intro a p o st _ _ _ _ len
    exact sendLoop_uses hx (fun _ _ => rfl) data 0 answers
  | receive bufSize flags answer =>
    rw [Member.exec, wp_discard]
    exact receive_uses hx bufSize flags answer
  | receiveRaw bufSize flags answer =>
    rw [Member.exec, wp_discard, receiveRaw]
    apply request_uses hx
    exact fun _ => rfl
  | receiveFrom from_ bufSize flags answer =>
    rw [Member.exec, wp_discard]
    exact receiveFrom_uses hx from_ bufSize flags answer
  | setOption level option value answer =>
    rw [Member.exec, setOption]
    apply request_uses hx
    exact fun _ => rfl
  | getOption level option answer =>
    rw [Member.exec, wp_discard, getOption]
    apply request_uses hx
    exact fun _ => rfl
  | ready events timeout answer =>
    rw [Member.exec, wp_discard, ready, Prog.wp_bind, wp_request hx]
    exact ⟨fun _ _ => trivial, fun _ _ => used_called rfl⟩
  | bytesReady answer =>
    rw [Member.exec, wp_discard, bytesReady]
    apply request_uses hx
    exact fun _ => rfl
  | connectedAddress answer =>
    rw [Member.exec, wp_discard, connectedAddress]
    apply nameRequest_uses hx
    exact fun _ => rfl
  | localAddress answer =>
    rw [Member.exec, wp_discard, localAddress]
    apply nameRequest_uses hx
    exact fun _ => rfl

lemma member_rejects (hx : s.socks.get x = some v) {m : Member} (hr : Rejected pl s v m) :
    Prog.wp (m.exec pl x) (fun _ _ => False) (fun _ t => t = s) (fun _ => True) s := by
  cases m with
  | bind address len answer => exact bind_rejects hx hr
  | bindAddress fr address answer =>
    apply ofAddress_spec
    intro a p o st ha hp ho hst len
    exact bind_rejects hx (hr a p o st ha hp ho hst)
  | _ => exact hr.elim

end World

/-! ### Runs -/

section Effects

variable {op : SocketOp}

/-- Calls are made on the number of the object that the operation is for, and by a destructor
only with `m_validFD`. -/
lemma Effect.calls (he : Effect pl s op t) : ∀ c ∈ t.kernel.calls, ∀ n, c.descriptor = some n →
    ∃ x v, op.object = some x ∧ s.socks.get x = some v ∧ v.m_sockFD = n ∧
      (op.isDestroy = true → v.m_validFD = true) := by
  intro c hc n hn
  cases he with
  | created =>
    rw [List.mem_singleton.mp hc] at hn
    cases hn
  | notCreated _ hcs =>
    rw [hcs c hc] at hn
    cases hn
  | accepted hx =>
    rw [List.mem_singleton.mp hc] at hn
    cases hn
    exact ⟨_, _, rfl, hx, rfl, fun hd => by cases hd⟩
  | lost hx =>
    rw [List.mem_singleton.mp hc] at hn
    cases hn
    exact ⟨_, _, rfl, hx, rfl, fun hd => by cases hd⟩
  | notAccepted hx =>
    rw [List.mem_singleton.mp hc] at hn
    cases hn
    exact ⟨_, _, rfl, hx, rfl, fun hd => by cases hd⟩
  | paired _ _ _ hcs =>
    rw [hcs c hc] at hn
    cases hn
  | notPaired hcs =>
    rw [hcs c hc] at hn
    cases hn
  | moved => cases hc
  | exchanged => cases hc
  | peeked => cases hc
  | released =>
    rw [Kernel.calls_hand_start] at hc
    cases hc
  | forgotten => cases hc
  | @closed x v name _ hx hv h =>
    obtain ⟨p, -, rfl⟩ | hcall := h.of_mem_calls hc
    · cases hn
    · rw [hcall] at hn
      exact ⟨x, v, rfl, hx, Option.some.inj hn, fun _ => hv⟩
  | served hx h =>
    rw [h.of_mem_calls hc] at hn
    exact ⟨_, _, rfl, hx, Option.some.inj hn, fun hd => by cases hd⟩

/-- `accept` asks the kernel with the number of its object, whatever comes of it. -/
lemma Effect.accept_call {answer : Except Int Int} (he : Effect pl s (.accept x answer) t) :
    ∃ v, s.socks.get x = some v ∧ Call.accept v.m_sockFD ∈ t.kernel.calls := by
  cases he with
  | accepted hx => exact ⟨_, hx, List.mem_singleton_self _⟩
  | lost hx => exact ⟨_, hx, List.mem_singleton_self _⟩
  | notAccepted hx => exact ⟨_, hx, List.mem_singleton_self _⟩
  | exchanged hop => rcases hop with hop | ⟨_, hop⟩ <;> cases hop

lemma Exclusive.ownsNumber (h : Exclusive s) (hx : s.socks.get x = some v)
    (hv : v.m_validFD = true) : OwnsNumber s x v.m_sockFD := by
  have howner : Owner s.socks x v.m_sockFD := ⟨v, hx, hv, rfl⟩
  obtain ⟨i, d, hl, -⟩ := h.lookup ⟨x, howner⟩
  exact ⟨howner, ⟨i, hl⟩, fun y hy => h.sole y x _ hy howner⟩

lemma valid_of_owner {n : Int} (hx : s.socks.get x = some v) (h : Owner s.socks x n) :
    v.m_validFD = true := ((owner_iff hx).mp h).1

lemma rejected_start {m : Member} : Rejected pl (SocketOp.start s) v m ↔ Rejected pl s v m := by
  cases m <;> rfl

/-- A member call that was turned down has made no system call and has thrown. -/
lemma member_turned_down {m : Member} (hx : s.socks.get x = some v) (hr : Rejected pl s v m)
    (hs : SocketOp.step pl s (.member x m) = some t) :
    t.kernel.calls = [] ∧
      ∃ e, SocketOp.exec pl (.member x m) (SocketOp.start s) = .throw e t := by
  have hx' : (SocketOp.start s).socks.get x = some v := hx
  have hwp : Prog.wp (SocketOp.exec pl (.member x m)) (fun _ _ => False)
      (fun _ u => u = SocketOp.start s) (fun _ => True) (SocketOp.start s) := by
    rw [SocketOp.exec, Prog.wp_bind, World.wp_this hx']
    exact World.member_rejects hx' (rejected_start.mpr hr)
  unfold Prog.wp at hwp
  cases ho : SocketOp.exec pl (.member x m) (SocketOp.start s) with
  | ok a u =>
    rw [ho] at hwp
    exact hwp.elim
  | throw e u =>
    rw [ho] at hwp
    subst hwp
    rw [SocketOp.step, ho] at hs
    cases hs
    exact ⟨rfl, e, rfl⟩
  | fault k =>
    rw [SocketOp.step, ho] at hs
    cases hs

/-- On an object with `m_validFD` every operation respects ownership. -/
lemma respects_of_onOwner (h : Exclusive s) (hs : SocketOp.step pl s op = some t)
    (hg : OnOwner pl s op) : RespectsOwnership pl s op := by
  intro t' ht'
  obtain rfl : t = t' := Option.some.inj (hs.symm.trans ht')
  have he := step_effect hs
  constructor
  · intro c hc n hn
    obtain ⟨x, v, hobj, hx, rfl, hdestroy⟩ := he.calls c hc n hn
    refine ⟨x, hobj, h.ownsNumber hx ?_⟩
    cases op with
    | accept y answer =>
      cases hobj
      exact hg v hx
    | destroy y name => exact hdestroy rfl
    | member y m =>
      cases hobj
      rcases hg v hx with hv | hrej
      · exact hv
      · rw [(member_turned_down hx hrej hs).1] at hc
        cases hc
    | _ => cases hobj
  · intro x hobj hno
    cases op with
    | accept y answer =>
      cases hobj
      obtain ⟨v, hx, -⟩ := he.accept_call
      exact absurd ⟨v, hx, hg v hx, rfl⟩ (hno v.m_sockFD)
    | destroy y name => exact Or.inl rfl
    | member y m =>
      cases hobj
      cases he with
      | @served x v m t hx _ =>
        rcases hg v hx with hv | hrej
        · exact absurd ⟨v, hx, hv, rfl⟩ (hno v.m_sockFD)
        · exact Or.inr (member_turned_down hx hrej hs).2
      | exchanged hop => rcases hop with hop | ⟨_, hop⟩ <;> cases hop
    | _ => cases hobj

/-- An operation that respects ownership is made on an object with `m_validFD`. -/
lemma onOwner_of_respects (hs : SocketOp.step pl s op = some t)
    (hr : RespectsOwnership pl s op) : OnOwner pl s op := by
  obtain ⟨hcalls, herror⟩ := hr t hs
  cases op with
  | accept x answer =>
    intro v hx
    obtain ⟨w, hw, hmem⟩ := (step_effect hs).accept_call
    rw [hx] at hw
    cases hw
    obtain ⟨y, hobj, howns⟩ := hcalls _ hmem v.m_sockFD rfl
    cases hobj
    exact valid_of_owner hx howns.1
  | member x m =>
    intro v hx
    by_contra hn
    obtain ⟨hv, hrej⟩ := not_or.mp hn
    have hno : ∀ n, ¬Owner s.socks x n := fun n hn => hv (valid_of_owner hx hn)
    have hx' : (SocketOp.start s).socks.get x = some v := hx
    have hwp : Prog.wp (SocketOp.exec pl (.member x m)) (fun _ _ => True)
        (fun _ => Used v.m_sockFD) (fun _ => True) (SocketOp.start s) := by
      rw [SocketOp.exec, Prog.wp_bind, World.wp_this hx']
      exact World.member_uses hx' m (mt rejected_start.mp hrej)
    rcases herror x rfl hno with hdestroy | ⟨e, he⟩
    · cases hdestroy
    · rw [Prog.wp, he] at hwp
      obtain ⟨c, hc, hdesc⟩ := hwp
      obtain ⟨y, hobj, howns⟩ := hcalls c hc v.m_sockFD hdesc
      cases hobj
      exact hno _ howns.1
  | _ => trivial

end Effects

variable (pl) in
/-- Every operation of a run uses only descriptors of its own object exactly when it is made
on an object with `m_validFD`. -/
theorem descriptor_use_iff (autoInitialize : Bool) (files : List (List UInt8))
    (ops : List SocketOp) :
    Guarded (SocketOp.step pl) (RespectsOwnership pl) (World.initial autoInitialize files) ops ↔
      Guarded (SocketOp.step pl) (OnOwner pl) (World.initial autoInitialize files) ops := by
  apply guarded_iff_guarded (I := Exclusive)
  · intro s op t h hs
    exact h.effect (step_effect hs)
  · intro s op t h hs
    exact ⟨onOwner_of_respects hs, respects_of_onOwner h hs⟩
  · exact Exclusive.initial autoInitialize files

/-- A socket that has been moved from sends on whatever number it was left with. -/
theorem not_descriptor_use : ¬∀ ops : List SocketOp, (∀ op ∈ ops, ∀ x, op ≠ .socketFD x true) →
    Guarded (SocketOp.step linuxHost) (RespectsOwnership linuxHost) (World.initial true [])
      ops := by
  intro h
  have hrun := h [.create 2 1 0 (.ok 3), .create 2 1 0 (.ok 4), .move 0 ⟨false, 4, 2, 1, 0⟩,
    .member 0 (.send [65] 0 [.ok 1])] (by simp)
  have hsend := ((((hrun _ rfl).2 _ rfl).2 _ rfl).2 _ rfl).1
  obtain ⟨x, hobj, howner, -⟩ := (hsend _ rfl).1 (.send 4 [65] 0x4000) List.mem_cons_self 4 rfl
  cases hobj
  obtain ⟨v, hv, hvalid, -⟩ := howner
  cases hv
  cases hvalid

end SockLib
