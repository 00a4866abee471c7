import SockLib.Model.Socket
import SockLib.Proofs.Identity
import SockLib.Proofs.LibraryUsers

/-!
# Proof rules for sockets

One rule for each building block of the socket operations, and from them all that one
operation can do: `Effect` lists what each operation leaves behind, so that an invariant
of a run is a case analysis over it.
-/

namespace SockLib

variable {pl : Platform}

namespace Kernel

variable {k k' : Kernel} {n : Int}

lemma exists_of_lookup {i : Nat} (h : k.lookup n = some i) :
    ∃ d, k.descs.get i = some d ∧ d.isOpen = true ∧ d.number = n := by
  obtain ⟨d, hd, hp⟩ := Store.exists_of_find h
  simp only [Bool.and_eq_true, beq_iff_eq] at hp
  exact ⟨d, hd, hp.1, hp.2⟩

lemma number_ne_of_lookup (h : k.lookup n = none) {i : Nat} {d : Descriptor}
    (hd : k.descs.get i = some d) (ho : d.isOpen = true) : d.number ≠ n := by
  have hp := Store.not_of_find_none h hd
  simp only [ho, Bool.true_and, beq_eq_false_iff_ne] at hp
  exact hp

/-- Only the descriptors matter for finding one. -/
lemma lookup_congr (h : k'.descs = k.descs) : k'.lookup n = k.lookup n := by
  unfold lookup
  rw [h]

lemma allocate_eq_some {localPath : Option (List UInt8)} (h : k.allocate n localPath = some k') :
    k.lookup n = none ∧ k' = { k with descs := k.descs.push { number := n, localPath } } := by
  unfold allocate at h
  by_cases hfree : n ≠ -1 ∧ k.lookup n = none
  · rw [if_pos hfree] at h
    exact ⟨hfree.2, (Option.some.inj h).symm⟩
  · rw [if_neg hfree] at h
    cases h

end Kernel

namespace World

variable {α : Type} {E : Exn → World → Prop} {F : Fault → Prop} {s : World}

/-! ### Building blocks -/

@[simp] lemma wp_addresses {m : AddrProg α} {Q : α → World → Prop} :
    Prog.wp (addresses m) Q E F s ↔
      Prog.wp m (fun a t => Q a { s with addr := t }) (fun e t => E e { s with addr := t }) F
        s.addr := by
  rw [addresses, Prog.wp_zoom]

@[simp] lemma wp_library {m : Prog Fault Exn Library α} {Q : α → World → Prop} :
    Prog.wp (library m) Q E F s ↔
      Prog.wp m (fun a l => Q a { s with addr := { s.addr with lib := l } })
        (fun e l => E e { s with addr := { s.addr with lib := l } }) F s.addr.lib := by
  rw [library, wp_addresses, Addresses.onLibrary, Prog.wp_zoom]

@[simp] lemma wp_sysCall {c : Call} {Q : Unit → World → Prop} :
    Prog.wp (sysCall c) Q E F s ↔
      Q () { s with kernel := { s.kernel with calls := c :: s.kernel.calls } } := Iff.rfl

lemma wp_kernelStep {f : Kernel → Option Kernel} {Q : Unit → World → Prop} :
    Prog.wp (kernelStep f) Q E F s ↔
      (∀ k, f s.kernel = some k → Q () { s with kernel := k }) ∧
      (f s.kernel = none → F .noSuchAnswer) := by
  rw [kernelStep, Prog.wp_bind, Prog.wp_gets, Prog.wp_bind]
  cases hf : f s.kernel <;> simp [hf]

@[simp] lemma wp_kernelStep_some {f : Kernel → Kernel} {Q : Unit → World → Prop} :
    Prog.wp (kernelStep fun k => some (f k)) Q E F s ↔ Q () { s with kernel := f s.kernel } := by
  simp [wp_kernelStep]

lemma wp_check {answer : Except Int α} {Q : α → World → Prop} :
    Prog.wp (check pl answer) Q E F s ↔
      (∀ a, answer = .ok a → Q a s) ∧ (∀ errno, answer = .error errno → E (sysErr pl errno) s) := by
  cases answer <;> simp [check]

lemma wp_this {x : Nat} {v : Socket} (h : s.socks.get x = some v) {Q : Socket → World → Prop} :
    Prog.wp (this x) Q E F s ↔ Q v s := by
  simp [this, h]

lemma wp_this_iff {x : Nat} {Q : Socket → World → Prop} :
    Prog.wp (this x) Q E F s ↔
      (∀ v, s.socks.get x = some v → Q v s) ∧ (s.socks.get x = none → F .danglingPointer) := by
  cases h : s.socks.get x with
  | none => simp [this, h]
  | some v => simp [wp_this h]

/-- A program that starts by reading an object may assume that it is there. -/
lemma wp_of_this {x : Nat} {f : Socket → SockProg α} {Q : α → World → Prop}
    (h : ∀ v, s.socks.get x = some v → Prog.wp (this x >>= f) Q E (fun _ => True) s) :
    Prog.wp (this x >>= f) Q E (fun _ => True) s := by
  rw [Prog.wp_bind, wp_this_iff]
  refine ⟨fun v hv => ?_, fun _ => trivial⟩
  have hwp := h v hv
  rw [Prog.wp_bind, wp_this hv] at hwp
  exact hwp

lemma wp_setSocket {x : Nat} {v w : Socket} (h : s.socks.get x = some v)
    {Q : Unit → World → Prop} :
    Prog.wp (setSocket x w) Q E F s ↔ Q () { s with socks := s.socks.put x w } := by
  simp [setSocket, wp_this h]

@[simp] lemma wp_newSocket {v : Socket} {Q : Nat → World → Prop} :
    Prog.wp (newSocket v) Q E F s ↔ Q s.socks.next { s with socks := s.socks.push v } := Iff.rfl

@[simp] lemma wp_discard {m : SockProg α} {Q : Unit → World → Prop} :
    Prog.wp (discard m) Q E F s ↔ Prog.wp m (fun _ => Q ()) E F s := by
  simp [discard]

/-- Where the library enters a user before something else. -/
lemma wp_enter {Q : Unit → World → Prop} :
    Prog.wp (library (autoInitializeLibrary pl)) Q E F s ↔
      (s.addr.lib.StartFails pl → E (sysErr pl (pl.WSAStartup s.addr.lib.startups))
        { s with addr := { s.addr with
          lib := { s.addr.lib with startups := s.addr.lib.startups + 1 } } }) ∧
      (¬s.addr.lib.StartFails pl →
        Q () { s with addr := { s.addr with lib := s.addr.lib.enter } }) := by
  rw [wp_library, wp_autoInitializeLibrary]

lemma wp_wrap {fd : Int} {d : Nat} {t protocol : Int} {Q : Nat → World → Prop} :
    Prog.wp (wrap pl fd d t protocol) Q E F s ↔
      (s.addr.lib.StartFails pl → E (sysErr pl (pl.WSAStartup s.addr.lib.startups))
        { s with addr := { s.addr with
          lib := { s.addr.lib with startups := s.addr.lib.startups + 1 } } }) ∧
      (¬s.addr.lib.StartFails pl → Q s.socks.next
        { s with
          addr := { s.addr with lib := s.addr.lib.enter }
          socks := s.socks.push ⟨true, fd, d, t, protocol⟩ }) := by
  rw [wrap, Prog.wp_bind, wp_enter]
  rfl

/-! ### Moves -/

lemma wp_swapMembers {x y : Nat} {a b : Socket} (hx : s.socks.get x = some a)
    (hy : s.socks.get y = some b) {Q : Unit → World → Prop} :
    Prog.wp (swapMembers x y) Q E F s ↔
      Q () { s with socks := (s.socks.put x b).put y a } := by
  obtain ⟨c, hc⟩ : ∃ c, (s.socks.put x b).get y = some c := by
    rw [Store.get_put hx]
    split
    · exact ⟨b, rfl⟩
    · exact ⟨b, hy⟩
  rw [swapMembers, Prog.wp_bind, wp_this hx, Prog.wp_bind, wp_this hy, Prog.wp_bind,
    wp_setSocket hx]
  exact wp_setSocket (s := { s with socks := s.socks.put x b }) hc

lemma wp_moveConstruct {y : Nat} {b junk : Socket} (hy : s.socks.get y = some b)
    {Q : Nat → World → Prop} :
    Prog.wp (moveConstruct y junk) Q E F s ↔
      Q s.socks.next
        { s with socks := (s.socks.push b).put y { junk with m_validFD := false } } := by
  have hy' := Store.get_push_of_some hy { junk with m_validFD := false }
  rw [moveConstruct, Prog.wp_bind, wp_this hy, Prog.wp_bind, wp_newSocket, Prog.wp_bind]
  refine (wp_swapMembers (by exact s.socks.get_push_self _) (by exact hy')).trans ?_
  rw [Store.push_put_next]
  rfl

/-- An object that owns nothing is just removed. -/
lemma wp_destroy_invalid {x : Nat} {v : Socket} (hx : s.socks.get x = some v)
    (hv : v.m_validFD = false) {name : NameAnswer} {Q : Unit → World → Prop} :
    Prog.wp (destroy pl x name) Q E F s ↔ Q () { s with socks := s.socks.erase x } := by
  rw [destroy, noexcept, Prog.wp_tryCatch, Prog.wp_bind, wp_this hx]
  simp [hv]

/-- `std::swap` exchanges the two objects; its temporary owns nothing when it is destroyed. -/
lemma swap_spec {x y : Nat} {a b junk : Socket} (hx : s.socks.get x = some a)
    (hy : s.socks.get y = some b) {Q : Unit → World → Prop}
    (hQ : ∀ socks, (∀ z, socks.get z = ((s.socks.put x b).put y a).get z) →
      Q () { s with socks }) :
    Prog.wp (swap pl x y junk) Q E F s := by
  let j : Socket := { junk with m_validFD := false }
  have hpush := s.socks.get_push a
  have hnext := s.socks.get_next
  have hput₁ := Store.get_put (Store.get_push_of_some hx a) j
  obtain ⟨b', hb'⟩ : ∃ b', ((s.socks.push a).put x j).get y = some b' := by grind
  have hput₂ := Store.get_put (show ((s.socks.push a).put x j).get x = some j by grind) b'
  have hput₃ := Store.get_put
    (show (((s.socks.push a).put x j).put x b').get y = some b' by grind) j
  have hput₄ := Store.get_put
    (show ((((s.socks.push a).put x j).put x b').put y j).get y = some j by grind) a
  have htmp : (((((s.socks.push a).put x j).put x b').put y j).put y a).get s.socks.next =
      some a := by grind
  have hput₅ := Store.get_put htmp j
  have hbx := Store.get_put hx b
  have hby := Store.get_put (show (s.socks.put x b).get y = some b by grind) a
  rw [swap, Prog.wp_bind, wp_this hy, Prog.wp_bind, wp_moveConstruct hx, Prog.wp_bind]
  refine (wp_swapMembers (a := j) (b := b') (by grind) (by grind)).mpr ?_
  rw [Prog.wp_bind]
  refine (wp_swapMembers (a := j) (b := a) (by grind) (by grind)).mpr ?_
  refine (wp_destroy_invalid (v := j) (by grind) rfl).mpr ?_
  apply hQ
  intro z
  have herase := Store.get_erase
    ((((((s.socks.push a).put x j).put x b').put y j).put y a).put s.socks.next j) s.socks.next z
  grind

/-! ### Members -/

/-- The state after a system call that has no other effect. -/
def called (s : World) (c : Call) : World :=
  { s with kernel := { s.kernel with calls := c :: s.kernel.calls } }

lemma wp_request {x : Nat} {v : Socket} (hx : s.socks.get x = some v) {call : Int → Call}
    {answer : Except Int α} {Q : α → World → Prop} :
    Prog.wp (request pl x call answer) Q E F s ↔
      (∀ a, answer = .ok a → Q a (s.called (call v.m_sockFD))) ∧
      (∀ errno, answer = .error errno →
        E (sysErr pl errno) (s.called (call v.m_sockFD))) := by
  rw [request, Prog.wp_bind, wp_this hx, Prog.wp_bind, wp_sysCall, wp_check]
  rfl

lemma this_eq {x : Nat} {v : Socket} (hx : s.socks.get x = some v) : this x s = .ok v s := by
  change Prog.demand (s.socks.get x) Fault.danglingPointer s = _
  rw [hx]
  rfl

lemma this_dead {x : Nat} (hx : s.socks.get x = none) : this x s = .fault .danglingPointer := by
  change Prog.demand (s.socks.get x) Fault.danglingPointer s = _
  rw [hx]
  rfl

lemma request_eq {x : Nat} {v : Socket} (hx : s.socks.get x = some v) (call : Int → Call)
    (answer : Except Int α) :
    request pl x call answer s = check pl answer (s.called (call v.m_sockFD)) :=
  Prog.bind_of_ok (this_eq hx)

lemma request_dead {x : Nat} (hx : s.socks.get x = none) (call : Int → Call)
    (answer : Except Int α) : request pl x call answer s = .fault .danglingPointer :=
  Prog.bind_of_fault (this_dead hx)

/-! ### Addresses passed on -/

section PassedOn

variable {x y : Nat} {o : AddressObject} {fr : Frame} {st : SockaddrStorage}

/-- A member that takes an address is the one that takes its C structure and size. -/
lemma ofAddress_eq (h : s.addr.Holds pl y o) (hst : o.toSockaddrStorage pl fr = some st)
    (m : SockaddrStorage → Nat → SockProg Unit) :
    (do
      let addr ← addresses (Addresses.toSockaddrStorage pl fr y)
      let len ← addresses (Addresses.size y)
      m addr len) s = m st o.size s := by
  refine (Prog.bind_of_ok (Prog.zoom_of_ok (h.toSockaddrStorage hst))).trans ?_
  exact Prog.bind_of_ok (Prog.zoom_of_ok h.size)

lemma bindAddress_eq (h : s.addr.Holds pl y o) (hst : o.toSockaddrStorage pl fr = some st)
    (answer : Except Int Unit) : bindAddress pl x fr y answer s = bind pl x st o.size answer s :=
  ofAddress_eq h hst fun addr len => bind pl x addr len answer

lemma connectAddress_eq (h : s.addr.Holds pl y o) (hst : o.toSockaddrStorage pl fr = some st)
    (answer : Except Int Unit) :
    connectAddress pl x fr y answer s = connect pl x st o.size answer s :=
  ofAddress_eq h hst fun addr len => connect pl x addr len answer

lemma sendAddress_eq (h : s.addr.Holds pl y o) (hst : o.toSockaddrStorage pl fr = some st)
    (data : List UInt8) (flags : Nat) (answers : List (Except Int Nat)) :
    sendAddress pl x data fr y flags answers s =
      sendTo pl x data st o.size flags answers s :=
  ofAddress_eq h hst fun addr len => sendTo pl x data addr len flags answers

end PassedOn

end World

/-- Nothing has been bound, or a descriptor without a pathname has been bound to a new one. -/
def Kernel.Rebound (n : Int) (k k' : Kernel) : Prop :=
  (k'.descs = k.descs ∧ k'.files = k.files) ∨
  ∃ i d p, k.lookup n = some i ∧ k.descs.get i = some d ∧ d.localPath = none ∧ p ∉ k.files ∧
    k'.descs = k.descs.put i { d with localPath := some p, boundPath := some p } ∧
    k'.files = p :: k.files

/-- What a member call on an object with the number `fd` may change. -/
structure Served (fd : Int) (s t : World) : Prop where
  socks : t.socks = s.socks
  addr : s.addr.Kept t.addr
  calls : ∃ cs, t.kernel.calls = cs ++ s.kernel.calls ∧ ∀ c ∈ cs, c.descriptor = some fd
  kernel : s.kernel.Rebound fd t.kernel

namespace Served

variable {fd : Int} {s t : World}

lemma refl (fd : Int) (s : World) : Served fd s s :=
  ⟨rfl, Addresses.Kept.refl _, ⟨[], rfl, by simp⟩, Or.inl ⟨rfl, rfl⟩⟩

lemma ofKept {a : Addresses} (h : s.addr.Kept a) : Served fd s { s with addr := a } :=
  { refl fd s with addr := h }

lemma call {c : Call} (hc : c.descriptor = some fd) (h : Served fd (s.called c) t) :
    Served fd s t := by
  obtain ⟨cs, hcs, hall⟩ := h.calls
  refine ⟨h.socks, h.addr, ⟨cs ++ [c], ?_, ?_⟩, h.kernel⟩
  · rw [hcs, List.append_assoc]
    rfl
  · intro c' hc'
    rcases List.mem_append.mp hc' with hmem | hmem
    · exact hall c' hmem
    · rw [List.mem_singleton.mp hmem]
      exact hc

lemma called {c : Call} (hc : c.descriptor = some fd) : Served fd s (s.called c) :=
  call hc (refl fd _)

end Served

lemma Kernel.rebound_of_bind {k k' : Kernel} {n : Int} {path : Option (List UInt8)}
    (h : k.bind n path = some k') : k.Rebound n k' ∧ k'.calls = k.calls := by
  obtain ⟨i, hi, h⟩ := Option.bind_eq_some_iff.mp h
  obtain ⟨d, hd, h⟩ := Option.bind_eq_some_iff.mp h
  cases path with
  | none =>
    by_cases hfree : d.localPath = none
    · simp only [hfree, if_true] at h
      cases h
      exact ⟨Or.inl ⟨rfl, rfl⟩, rfl⟩
    · simp only [hfree, if_false] at h
      cases h
  | some p =>
    by_cases hfree : d.localPath = none ∧ p ∉ k.files
    · simp only [hfree, not_false_eq_true, and_self, if_true] at h
      cases h
      refine ⟨Or.inr ⟨i, d, p, hi, hd, hfree.1, hfree.2, ?_, rfl⟩, rfl⟩
      simp [Store.update, hd]
    · simp only [hfree, if_false] at h
      cases h

namespace World

variable {α : Type} {s : World} {x : Nat} {v : Socket}

lemma request_served (hx : s.socks.get x = some v) {call : Int → Call} {answer : Except Int α}
    (hc : ∀ fd, (call fd).descriptor = some fd) :
    Prog.wp (request pl x call answer) (fun _ => Served v.m_sockFD s)
      (fun _ => Served v.m_sockFD s) (fun _ => True) s := by
  rw [wp_request hx]
  exact ⟨fun _ _ => Served.called (hc _), fun _ _ => Served.called (hc _)⟩

lemma bind_served (hx : s.socks.get x = some v) (address : SockaddrStorage) (len : Nat)
    (answer : Except Int Unit) :
    Prog.wp (bind pl x address len answer) (fun _ => Served v.m_sockFD s)
      (fun _ => Served v.m_sockFD s) (fun _ => True) s := by
  rw [bind, Prog.wp_bind, wp_this hx]
  by_cases hd : ssFamily pl address = v.m_domain
  · simp only [hd, ne_eq, not_true_eq_false, if_false, Prog.wp_bind]
    rw [wp_request hx]
    refine ⟨fun _ _ => ?_, fun _ _ => Served.called rfl⟩
    rw [wp_kernelStep]
    refine ⟨fun k hk => ?_, fun _ => trivial⟩
    obtain ⟨hre, hcalls⟩ := Kernel.rebound_of_bind hk
    refine ⟨rfl, Addresses.Kept.refl _, ⟨[.bind v.m_sockFD address len], hcalls, ?_⟩, hre⟩
    intro c hc
    rw [List.mem_singleton.mp hc]
    rfl
  · simp only [hd, ne_eq, not_false_eq_true, if_true, Prog.wp_bind, Prog.wp_raise]
    exact Served.refl _ s

lemma connect_served (hx : s.socks.get x = some v) (address : SockaddrStorage) (len : Nat)
    (answer : Except Int Unit) :
    Prog.wp (connect pl x address len answer) (fun _ => Served v.m_sockFD s)
      (fun _ => Served v.m_sockFD s) (fun _ => True) s := by
  apply request_served hx
  exact fun _ => rfl

lemma sendLoop_served (hx : s.socks.get x = some v) {call : Int → List UInt8 → Call}
    (hc : ∀ fd piece, (call fd piece).descriptor = some fd) (data : List UInt8) (sent : Nat)
    (answers : List (Except Int Nat)) :
    Prog.wp (sendLoop pl x call data sent answers) (fun _ => Served v.m_sockFD s)
      (fun _ => Served v.m_sockFD s) (fun _ => True) s := by
  induction answers generalizing sent s with
  | nil =>
    rw [sendLoop, Prog.wp_ite]
    split
    · trivial
    · exact Served.refl _ s
  | cons answer answers ih =>
    rw [sendLoop, Prog.wp_ite]
    split
    · rw [Prog.wp_bind, wp_request hx]
      refine ⟨fun r _ => ?_, fun _ _ => Served.called (hc _ _)⟩
      have hrest := ih (s := s.called (call v.m_sockFD (nextPiece pl data sent))) hx (sent + r)
      exact Prog.wp_mono hrest (fun _ _ h => Served.call (hc _ _) h)
        (fun _ _ h => Served.call (hc _ _) h) (fun _ h => h)
    · exact Served.refl _ s

lemma receive_served (hx : s.socks.get x = some v) (bufSize flags : Nat)
    (answer : Except Int (List UInt8)) :
    Prog.wp (receive pl x bufSize flags answer) (fun _ => Served v.m_sockFD s)
      (fun _ => Served v.m_sockFD s) (fun _ => True) s := by
  rw [receive, Prog.wp_bind, wp_request hx]
  exact ⟨fun _ _ => Served.called rfl, fun _ _ => Served.called rfl⟩

/-- A new address comes from a C structure. -/
lemma ofStorage_served (fd : Int) (s : World) (st : SockaddrStorage) (len : Nat) :
    Prog.wp (addresses (Addresses.ofStorage pl st len)) (fun _ => Served fd s)
      (fun _ => Served fd s) (fun _ => True) s := by
  rw [wp_addresses]
  exact Prog.wp_mono (Addresses.ofStorage_kept s.addr st len)
    (fun _ _ h => Served.ofKept h) (fun _ _ h => Served.ofKept h) (fun _ h => h)

lemma connectedAddress_served (hx : s.socks.get x = some v) (answer : NameAnswer) :
    Prog.wp (connectedAddress pl x answer) (fun _ => Served v.m_sockFD s)
      (fun _ => Served v.m_sockFD s) (fun _ => True) s := by
  rw [connectedAddress, Prog.wp_bind, wp_request hx]
  refine ⟨fun sa _ => ?_, fun _ _ => Served.called rfl⟩
  exact Prog.wp_mono (ofStorage_served v.m_sockFD _ sa.1 sa.2) (fun _ _ h => Served.call rfl h)
    (fun _ _ h => Served.call rfl h) (fun _ h => h)

lemma localAddress_served (hx : s.socks.get x = some v) (answer : NameAnswer) :
    Prog.wp (localAddress pl x answer) (fun _ => Served v.m_sockFD s)
      (fun _ => Served v.m_sockFD s) (fun _ => True) s := by
  rw [localAddress, Prog.wp_bind, wp_request hx]
  refine ⟨fun sa _ => ?_, fun _ _ => Served.called rfl⟩
  exact Prog.wp_mono (ofStorage_served v.m_sockFD _ sa.1 sa.2) (fun _ _ h => Served.call rfl h)
    (fun _ _ h => Served.call rfl h) (fun _ h => h)

end World

namespace Addresses

variable {s : Addresses}

/-- The address a payload came from replaces another one, which is not deleted. -/
lemma replace_kept (s : Addresses) (x : Nat) (st : SockaddrStorage) (len : Nat) :
    Prog.wp (do
        let tmp ← ofStorage pl st len
        moveAssign x tmp
        destroy pl tmp) (fun _ => s.Kept) (fun _ => s.Kept) (fun _ => True) s := by
  rw [Prog.wp_bind]
  apply ofStorage_spec
  · intro f o _ _ _
    let a : Address := ⟨ssFamily pl st, some s.heap.next⟩
    have htmp : (s.vars.push a).get s.vars.next = some a := s.vars.get_push_self a
    cases hx : (s.vars.push a).get x with
    | none =>
      rw [Prog.wp_bind, moveAssign, Prog.wp_bind]
      refine (wp_this (by exact htmp)).mpr ?_
      rw [Prog.wp_bind, setDomain, Prog.wp_bind, wp_this_iff]
      refine ⟨fun b hb => ?_, fun _ => trivial⟩
      rw [hx] at hb
      cases hb
    | some b =>
      refine (wp_moveAssign_destroy pl (by exact hx) (by exact htmp)).mpr ?_
      exact (kept_push s o _).vars _
  · intro e l v hl
    exact kept_of_sameUsers hl v
  · intro _ _
    trivial
  · intro _ _
    trivial

lemma size_same {E : Exn → Addresses → Prop} {Q : Nat → Addresses → Prop} {x : Nat}
    (hQ : ∀ n, Q n s) : Prog.wp (size x) Q E (fun _ => True) s := by
  rw [size, Prog.wp_bind, wp_this_iff]
  refine ⟨fun a _ => ?_, fun _ => trivial⟩
  rcases a with ⟨d, _ | p⟩
  · exact hQ 0
  · cases ho : s.heap.get p with
    | none => simp [dereference, object, ho]
    | some o =>
      rw [Prog.wp_bind, wp_dereference ho]
      exact hQ o.size

/-- Reading the C structure of an address changes nothing. -/
lemma toSockaddrStorage_same {E : Exn → Addresses → Prop} {Q : SockaddrStorage → Addresses → Prop}
    {fr : Frame} {x : Nat}
    (hQ : ∀ a p o st, s.vars.get x = some a → a.base = some p → s.heap.get p = some o →
      o.toSockaddrStorage pl fr = some st → Q st s) :
    Prog.wp (toSockaddrStorage pl fr x) Q E (fun _ => True) s := by
  rw [toSockaddrStorage, Prog.wp_bind, wp_this_iff]
  refine ⟨fun a ha => ?_, fun _ => trivial⟩
  rcases a with ⟨d, _ | p⟩
  · simp
  · cases ho : s.heap.get p with
    | none => simp [dereference, object, ho]
    | some o =>
      rw [Prog.wp_bind, wp_dereference ho]
      cases hst : o.toSockaddrStorage pl fr with
      | none => trivial
      | some st => exact hQ ⟨d, some p⟩ p o st ha rfl ho hst

end Addresses

namespace World

variable {s : World} {x : Nat} {v : Socket}

lemma receiveFrom_served (hx : s.socks.get x = some v) (from_ bufSize flags : Nat)
    (answer : Except Int (List UInt8 × SockaddrStorage × Nat)) :
    Prog.wp (receiveFrom pl x from_ bufSize flags answer) (fun _ => Served v.m_sockFD s)
      (fun _ => Served v.m_sockFD s) (fun _ => True) s := by
  rw [receiveFrom, Prog.wp_bind, receiveRaw, wp_request hx]
  refine ⟨fun r _ => ?_, fun _ _ => Served.called rfl⟩
  obtain ⟨payload, addr, addrLen⟩ := r
  rw [Prog.wp_bind, wp_addresses]
  exact Prog.wp_mono (Addresses.replace_kept s.addr from_ addr addrLen)
    (fun _ _ h => Served.call rfl (Served.ofKept h))
    (fun _ _ h => Served.call rfl (Served.ofKept h)) (fun _ h => h)

/-- Reading an address as a C structure neither throws nor makes a call. -/
lemma ofAddress_spec {m : SockaddrStorage → Nat → SockProg Unit} {Q : Unit → World → Prop}
    {E : Exn → World → Prop} (fr : Frame) (address : Nat)
    (hm : ∀ a p o st, s.addr.vars.get address = some a → a.base = some p →
      s.addr.heap.get p = some o → o.toSockaddrStorage pl fr = some st →
      ∀ len, Prog.wp (m st len) Q E (fun _ => True) s) :
    Prog.wp (do
        let addr ← addresses (Addresses.toSockaddrStorage pl fr address)
        let len ← addresses (Addresses.size address)
        m addr len) Q E (fun _ => True) s := by
  rw [Prog.wp_bind, wp_addresses]
  apply Addresses.toSockaddrStorage_same
  intro a p o st ha hp ho hst
  rw [Prog.wp_bind, wp_addresses]
  apply Addresses.size_same
  intro n
  exact hm a p o st ha hp ho hst n

/-- Every member works on the number of its object and leaves all objects as they are. -/
lemma member_served (hx : s.socks.get x = some v) (m : Member) :
    Prog.wp (m.exec pl x) (fun _ => Served v.m_sockFD s) (fun _ => Served v.m_sockFD s)
      (fun _ => True) s := by
  cases m with
  | bind address len answer => exact bind_served hx address len answer
  | bindAddress fr address answer =>
    apply ofAddress_spec
    intro _ _ _ st _ _ _ _ len
    exact bind_served hx st len answer
  | listen backlog answer =>
    rw [Member.exec, listen]
    apply request_served hx
    exact fun _ => rfl
  | connect address len answer => exact connect_served hx address len answer
  | connectAddress fr address answer =>
    apply ofAddress_spec
    intro _ _ _ st _ _ _ _ len
    exact connect_served hx st len answer
  | send data flags answers => exact sendLoop_served hx (fun _ _ => rfl) data 0 answers
  | sendTo data toAddr addrLen flags answers =>
    exact sendLoop_served hx (fun _ _ => rfl) data 0 answers
  | sendAddress data fr to_ flags answers =>
    apply ofAddress_spec
    intro _ _ _ st _ _ _ _ len
    exact sendLoop_served hx (fun _ _ => rfl) data 0 answers
  | receive bufSize flags answer => exact wp_discard.mpr (receive_served hx bufSize flags answer)
  | receiveRaw bufSize flags answer => exact wp_discard.mpr (request_served hx fun _ => rfl)
  | receiveFrom from_ bufSize flags answer =>
    exact wp_discard.mpr (receiveFrom_served hx from_ bufSize flags answer)
  | setOption level option value answer =>
    rw [Member.exec, setOption]
    apply request_served hx
    exact fun _ => rfl
  | getOption level option answer => exact wp_discard.mpr (request_served hx fun _ => rfl)
  | ready events timeout answer =>
    refine wp_discard.mpr ?_
    rw [ready, Prog.wp_bind]
    exact request_served hx fun _ => rfl
  | bytesReady answer => exact wp_discard.mpr (request_served hx fun _ => rfl)
  | connectedAddress answer => exact wp_discard.mpr (connectedAddress_served hx answer)
  | localAddress answer => exact wp_discard.mpr (localAddress_served hx answer)

end World

/-! ### Destruction -/

/-- The path a destructor unlinks, by what `getsockname` answers. -/
def unlinkedPath (pl : Platform) (v : Socket) : NameAnswer → Option (List UInt8)
  | .ok (st, len) =>
    if pl.windows = false ∧ v.m_domain = pl.domainOf .unix ∧
        ssFamily pl st = pl.domainOf .unix then do
      let a ← UnixAddress.ofSockaddrUn st len
      if a.named = true then some (cStr a.name) else none
    else none
  | .error _ => none

def releaseCalls (pl : Platform) (fd : Int) : List Call :=
  [.close fd, .shutdown fd] ++ if pl.windows = true then [] else [.getsockname fd]

/-- What is left when an object that owned a descriptor is gone. -/
structure Closed (pl : Platform) (x : Nat) (v : Socket) (name : NameAnswer) (s t : World) :
    Prop where
  named : pl.windows = false → ∃ st len, name = .ok (st, len)
  socks : t.socks = s.socks.erase x
  descs : t.kernel.descs = (s.kernel.close v.m_sockFD).descs
  files : t.kernel.files = s.kernel.files.filter (fun f => some f ≠ unlinkedPath pl v name)
  calls : t.kernel.calls = ((unlinkedPath pl v name).map Call.unlink).toList ++
    (releaseCalls pl v.m_sockFD ++ s.kernel.calls)
  lib : t.addr.lib =
    (if pl.windows = true then s.addr.lib else s.addr.lib.enter.leave).leave
  count : t.addr.heap.count = s.addr.heap.count

/-- Leaving the library once is all that destruction does to it. -/
lemma Closed.lib_eq {x : Nat} {v : Socket} {name : NameAnswer} {s t : World} {k : Nat}
    (hc : Closed pl x v name s t) (hk : s.addr.Covered (k + 1)) :
    t.addr.lib = s.addr.lib.leave := by
  rw [hc.lib, Library.Covers.leave_enter (n := s.addr.heap.count + k) hk, ite_self]

lemma Closed.covered {x : Nat} {v : Socket} {name : NameAnswer} {s t : World} {k : Nat}
    (hc : Closed pl x v name s t) (hk : s.addr.Covered (k + 1)) : t.addr.Covered k := by
  rw [Addresses.Covered, hc.lib_eq hk, hc.count]
  exact Library.Covers.leave hk

namespace Kernel

@[simp] lemma files_close (k : Kernel) (n : Int) : (k.close n).files = k.files := by
  unfold close
  split <;> rfl

@[simp] lemma calls_close (k : Kernel) (n : Int) : (k.close n).calls = k.calls := by
  unfold close
  split <;> rfl

/-- Closing does not depend on the record of calls. -/
lemma descs_close (k : Kernel) (cs : List Call) (n : Int) :
    (({ k with calls := cs } : Kernel).close n).descs = (k.close n).descs := by
  have hl : ({ k with calls := cs } : Kernel).lookup n = k.lookup n := lookup_congr rfl
  simp only [close, hl]
  cases k.lookup n <;> rfl

end Kernel

namespace World

variable {s : World} {x : Nat} {v : Socket} {E : Exn → World → Prop} {F : Fault → Prop}

/-- The state after `shutdown` and `close`. -/
def shut (s : World) (fd : Int) : World :=
  { s with kernel :=
    ({ s.kernel with calls := .close fd :: .shutdown fd :: s.kernel.calls } : Kernel).close fd }

lemma wp_release {Q : Unit → World → Prop} :
    Prog.wp (release v) Q E F s ↔ Q () (s.shut v.m_sockFD) := by
  rw [release, Prog.wp_bind, wp_sysCall, Prog.wp_bind, wp_sysCall, wp_kernelStep_some]
  rfl

/-- The Windows build of the destructor. -/
lemma wp_destroy_windows (hw : pl.windows = true) (hx : s.socks.get x = some v)
    (hv : v.m_validFD = true) {name : NameAnswer} {Q : Unit → World → Prop} :
    Prog.wp (destroy pl x name) Q E F s ↔
      (s.addr.lib.CleanupFails pl → F .terminate) ∧
      (¬s.addr.lib.CleanupFails pl →
        Q () { s.shut v.m_sockFD with
          addr := { s.addr with lib := s.addr.lib.leave }
          socks := s.socks.erase x }) := by
  rw [destroy, noexcept, Prog.wp_tryCatch, Prog.wp_bind, wp_this hx]
  simp only [hv, hw, if_true, Prog.wp_bind]
  rw [wp_release, wp_library, wp_autoDeinitializeLibrary]
  rfl

/-- The POSIX build of the destructor: everything after `getsockname` works on what it
answers. -/
lemma wp_destroy_posix (hw : pl.windows = false) (hx : s.socks.get x = some v)
    (hv : v.m_validFD = true) {name : NameAnswer} {Q : Unit → World → Prop} :
    Prog.wp (destroy pl x name) Q E F s ↔
      (∀ st len, name = .ok (st, len) →
        Prog.wp (Addresses.ofStorage pl st len)
          (fun l a => Prog.wp (do
              if v.m_domain = pl.domainOf .unix then unlinkLocal pl l
              library (autoDeinitializeLibrary pl)
              addresses (Addresses.destroy pl l)
              Prog.modify fun s => { s with socks := s.socks.erase x }) Q
            (fun _ _ => F .terminate) F
            (({ s.called (.getsockname v.m_sockFD) with addr := a } : World).shut v.m_sockFD))
          (fun _ _ => F .terminate) F s.addr) ∧
      (∀ errno, name = .error errno → F .terminate) := by
  rw [destroy, noexcept, Prog.wp_tryCatch, Prog.wp_bind, wp_this hx]
  simp only [hv, hw, Bool.false_eq_true, if_true, if_false, Prog.wp_bind]
  rw [localAddress, Prog.wp_bind, wp_request hx]
  simp only [wp_addresses, wp_release, Prod.forall]
  rfl

lemma destroy_closed_windows (hw : pl.windows = true) (hx : s.socks.get x = some v)
    (hv : v.m_validFD = true) (name : NameAnswer) :
    Prog.wp (destroy pl x name) (fun _ => Closed pl x v name s) (fun _ _ => False)
      (fun _ => True) s := by
  refine (wp_destroy_windows hw hx hv).mpr ⟨fun _ => trivial, fun _ => ?_⟩
  have hpath : unlinkedPath pl v name = none := by
    unfold unlinkedPath
    split
    · rw [if_neg (by simp [hw])]
    · rfl
  constructor
  · intro hposix
    rw [hw] at hposix
    cases hposix
  · rfl
  · exact Kernel.descs_close _ _ _
  · simp [hpath, shut]
  · simp [hpath, shut, releaseCalls, hw]
  · simp [hw]
  · rfl

/-- On a unix socket the pathname named by the local address is removed; the copy of the
address that the cast makes does not stay. -/
lemma unlinkLocal_spec (hw : pl.windows = false) {Q : Unit → World → Prop} {l p : Nat}
    {a : Address} {o : AddressObject} (hl : s.addr.vars.get l = some a) (hb : a.base = some p)
    (ho : s.addr.heap.get p = some o) (hlib : s.addr.lib.enter.leave = s.addr.lib)
    (hcast : a.m_domain ≠ pl.domainOf .unix →
      E (.runtimeError (bytes "Cannot convert address domain")) s)
    (hclass : a.m_domain = pl.domainOf .unix → o.family ≠ .unix → F .typeConfusion)
    (hQ : ∀ u, o = .unix u → a.m_domain = pl.domainOf .unix → Q ()
      { s with
        addr := { s.addr with heap := (s.addr.heap.push o).erase s.addr.heap.next }
        kernel := if u.named = true then
          ({ s.kernel with calls := .unlink (cStr u.name) :: s.kernel.calls } : Kernel).unlink
            (cStr u.name) else s.kernel }) :
    Prog.wp (unlinkLocal pl l) Q E F s := by
  obtain ⟨d, b⟩ := a
  obtain rfl : b = some p := hb
  rw [unlinkLocal, Prog.wp_bind, wp_addresses, Addresses.castTo, Prog.wp_bind,
    Addresses.wp_this hl]
  by_cases hd : d = pl.domainOf .unix
  · simp only [hd, ne_eq, not_true_eq_false, if_false, Prog.wp_bind]
    rw [Addresses.wp_dereference ho, Addresses.wp_newObject_ok]
    refine ⟨fun hstart => absurd hstart (Library.not_startFails_of_posix hw _), fun _ => ?_⟩
    rw [wp_addresses, Addresses.wp_object (s.addr.heap.get_push_self o)]
    cases o with
    | ipv4 a => exact hclass hd (fun h => by cases h)
    | ipv6 a => exact hclass hd (fun h => by cases h)
    | unix u =>
      have hQ' := hQ u rfl hd
      by_cases hn : u.named = true
      · simp only [hn, if_true, Prog.wp_bind, wp_sysCall, wp_kernelStep_some, wp_addresses] at hQ' ⊢
        rw [Addresses.wp_destroyObject pl (s.addr.heap.get_push_self _)]
        refine ⟨fun hc => absurd hc (Library.not_cleanupFails_of_posix hw _), fun _ => ?_⟩
        simpa only [hlib] using hQ'
      · simp only [hn, Bool.false_eq_true, if_false, wp_addresses] at hQ' ⊢
        rw [Addresses.wp_destroyObject pl (s.addr.heap.get_push_self _)]
        refine ⟨fun hc => absurd hc (Library.not_cleanupFails_of_posix hw _), fun _ => ?_⟩
        simpa only [hlib] using hQ'
  · rw [if_pos hd]
    exact hcast hd

/-- The end of the destructor: the library is left, then the local address goes. -/
lemma depart_spec (hw : pl.windows = false) {Q : Unit → World → Prop} {l p : Nat} {a : Address}
    {o : AddressObject} (hl : s.addr.vars.get l = some a) (hb : a.base = some p)
    (ho : s.addr.heap.get p = some o)
    (hQ : Q ()
      { s with
        addr := ⟨s.addr.lib.leave.leave, s.addr.heap.erase p, s.addr.vars.erase l⟩
        socks := s.socks.erase x }) :
    Prog.wp (do
        library (autoDeinitializeLibrary pl)
        addresses (Addresses.destroy pl l)
        Prog.modify fun s => { s with socks := s.socks.erase x }) Q E F s := by
  have hclean := Library.not_cleanupFails_of_posix hw
  obtain ⟨d, b⟩ := a
  obtain rfl : b = some p := hb
  rw [Prog.wp_bind, wp_library, wp_autoDeinitializeLibrary]
  refine ⟨fun hc => absurd hc (hclean _), fun _ => ?_⟩
  rw [Prog.wp_bind, wp_addresses, Addresses.destroy, Prog.wp_bind]
  refine (Addresses.wp_this (by exact hl)).mpr ?_
  rw [Prog.wp_bind]
  refine (Addresses.wp_deleteBase_some pl (by exact ho)).mpr ?_
  exact ⟨fun hc => absurd hc (hclean _), fun _ => hQ⟩

lemma unix_of_ofStorage {f : Family} {st : SockaddrStorage} {len : Nat} {u : UnixAddress}
    (hf : pl.familyOf (ssFamily pl st) = some f) (hfam : ssFamily pl st = pl.domainOf .unix)
    (ho : AddressObject.ofStorage pl f st len = some (.ok (.unix u))) :
    UnixAddress.ofSockaddrUn st len = some u := by
  rw [hfam, pl.familyOf_domainOf] at hf
  cases hf
  obtain ⟨u', hu', hinj⟩ := Option.map_eq_some_iff.mp ho
  cases hinj
  exact hu'

/-- A new object is still there after a copy of it has been made and destroyed, and nothing
is left when it is destroyed too. -/
lemma erase_copy (heap : Store AddressObject) (o : AddressObject) :
    (((heap.push o).push o).erase (heap.push o).next).get heap.next = some o ∧
      ((((heap.push o).push o).erase (heap.push o).next).erase heap.next).count = heap.count := by
  have hget : (((heap.push o).push o).erase (heap.push o).next).get heap.next = some o := by
    rw [Store.get_erase, if_neg (by simp)]
    exact Store.get_push_of_some (heap.get_push_self o) o
  have hlast := Addresses.count_erase hget
  rw [Addresses.count_push_erase, Addresses.count_push] at hlast
  exact ⟨hget, by omega⟩

lemma destroy_closed_posix (hw : pl.windows = false) (hx : s.socks.get x = some v)
    (hv : v.m_validFD = true) (name : NameAnswer) :
    Prog.wp (destroy pl x name) (fun _ => Closed pl x v name s) (fun _ _ => False)
      (fun _ => True) s := by
  refine (wp_destroy_posix hw hx hv).mpr ⟨?_, fun _ _ => trivial⟩
  rintro st len rfl
  apply Addresses.ofStorage_made
  intro f o hf ho _
  have hvar := s.addr.vars.get_push_self ⟨ssFamily pl st, some s.addr.heap.next⟩
  have hheap := s.addr.heap.get_push_self o
  by_cases hd : v.m_domain = pl.domainOf .unix
  · rw [if_pos hd, Prog.wp_bind]
    obtain ⟨hget, hgone⟩ := erase_copy s.addr.heap o
    refine unlinkLocal_spec hw (by exact hvar) rfl (by exact hheap) s.addr.lib.leave_enter_enter
      (fun _ => trivial) (fun _ _ => trivial) ?_
    rintro u rfl hfam
    have hu := unix_of_ofStorage hf hfam ho
    have hpath : unlinkedPath pl v (.ok (st, len)) =
        if u.named = true then some (cStr u.name) else none := by
      rw [unlinkedPath, if_pos ⟨hw, hd, hfam⟩, hu]
      rfl
    refine depart_spec hw (by exact hvar) rfl (by exact hget) ?_
    constructor
    · exact fun _ => ⟨st, len, rfl⟩
    · rfl
    · cases hn : u.named with
      | false => exact Kernel.descs_close s.kernel _ _
      | true => exact Kernel.descs_close s.kernel _ _
    · rw [hpath]
      cases hn : u.named with
      | false => simp [shut, called]
      | true => simp [shut, called, Kernel.unlink]
    · rw [hpath]
      cases hn : u.named with
      | false => simp [shut, called, releaseCalls, hw]
      | true => simp [shut, called, releaseCalls, hw, Kernel.unlink]
    · simp [hw, shut, called]
    · exact hgone
  · rw [if_neg hd]
    refine depart_spec hw (by exact hvar) rfl (by exact hheap) ?_
    have hpath : unlinkedPath pl v (.ok (st, len)) = none := by
      rw [unlinkedPath, if_neg fun h => hd h.2.1]
    constructor
    · exact fun _ => ⟨st, len, rfl⟩
    · rfl
    · exact Kernel.descs_close s.kernel _ _
    · simp [hpath, shut, called]
    · simp [hpath, shut, releaseCalls, hw, called]
    · simp [hw, shut, called]
    · exact Addresses.count_push_erase s.addr.heap o

variable (pl) in
/-- A destructor that returns has closed the descriptor. -/
lemma destroy_closed (hx : s.socks.get x = some v) (hv : v.m_validFD = true) (name : NameAnswer) :
    Prog.wp (destroy pl x name) (fun _ => Closed pl x v name s) (fun _ _ => False)
      (fun _ => True) s := by
  cases hw : pl.windows with
  | true => exact destroy_closed_windows hw hx hv name
  | false => exact destroy_closed_posix hw hx hv name

end World

end SockLib
