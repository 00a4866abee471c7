import SockLib.Model.Buffers
import SockLib.Proofs.Identity
import SockLib.Proofs.StreamIntegrity

/-!
# What is handed to the kernel

The loops of `send` offer the rest of the data until all of it has been accepted or a call
fails. The results of the calls are a sequence chosen by the kernel; `accepted` adds them up.
On Windows the rest is offered only while its size fits an `int`. On a socket with messages
one call is one message, so the number of calls matters, too.
-/

namespace SockLib

open World

/-! ### Results of the calls -/

/-- What a call has accepted. -/
def count : Except Int Nat → Nat
  | .ok r => r
  | .error _ => 0

/-- The number of bytes that the first `k` calls have accepted. -/
def accepted (f : Nat → Except Int Nat) : Nat → Nat
  | 0 => 0
  | k + 1 => accepted f k + count (f k)

/-- The first `n` calls were needed, and each has accepted something. -/
def Running (f : Nat → Except Int Nat) (len n : Nat) : Prop :=
  ∀ k < n, accepted f k < len ∧ ∃ r, f k = .ok r

/-- Every call that is made fails or accepts at least one of the bytes offered, and no more. -/
def Admissible (pl : Platform) (f : Nat → Except Int Nat) (len : Nat) : Prop :=
  ∀ n r, Running f len n → accepted f n < len → f n = .ok r →
    1 ≤ r ∧ r ≤ pl.callLength (len - accepted f n)

/-- All is accepted after `n` calls. -/
def Finishes (f : Nat → Except Int Nat) (len n : Nat) : Prop :=
  Running f len n ∧ accepted f n = len

/-- The call after the first `n` fails, and was needed. -/
def Fails (f : Nat → Except Int Nat) (len n : Nat) (e : Int) : Prop :=
  Running f len n ∧ accepted f n < len ∧ f n = .error e

/-- What the first `n` calls have accepted, piece by piece. -/
def pieces (f : Nat → Except Int Nat) (data : List UInt8) (n : Nat) : List (List UInt8) :=
  (List.range n).map fun k => (data.drop (accepted f k)).take (count (f k))

section Results

variable {pl : Platform} {f : Nat → Except Int Nat} {len n : Nat} {data : List UInt8}

/-- The pieces are the data, as far as it has been accepted. -/
theorem flatten_pieces (f : Nat → Except Int Nat) (data : List UInt8) (n : Nat) :
    (pieces f data n).flatten = data.take (accepted f n) := by
  induction n with
  | zero => rfl
  | succ n ih =>
    rw [pieces, List.range_succ, List.map_append, List.flatten_append, ← pieces, ih, accepted,
      List.take_add]
    simp

lemma Running.succ (h : Running f len n) (hlt : accepted f n < len) {r : Nat} (hr : f n = .ok r) :
    Running f len (n + 1) := by
  intro k hk
  by_cases hkn : k < n
  · exact h k hkn
  · obtain rfl : k = n := by omega
    exact ⟨hlt, r, hr⟩

/-- Each call accepts something. -/
lemma Running.le_accepted (hf : Admissible pl f len) (h : Running f len n) :
    n ≤ accepted f n ∧ accepted f n ≤ len := by
  induction n with
  | zero => exact ⟨Nat.le_refl 0, Nat.zero_le _⟩
  | succ n ih =>
    have hn : Running f len n := fun k hk => h k (by omega)
    obtain ⟨hlt, r, hr⟩ := h n (Nat.lt_succ_self n)
    obtain ⟨hpos, hle⟩ := hf n r hn hlt hr
    have hoffered := pl.callLength_le (len - accepted f n)
    have hprev := ih hn
    rw [accepted, hr, count]
    omega

/-- The loop comes to an end after at most as many calls as there are bytes. -/
theorem finishes_or_fails (hf : Admissible pl f len) :
    (∃ n ≤ len, Finishes f len n) ∨ ∃ n < len, ∃ e, Fails f len n e := by
  by_contra hnever
  obtain ⟨hfin, hfail⟩ := not_or.mp hnever
  have hrun : ∀ n, n ≤ len + 1 → Running f len n := by
    intro n
    induction n with
    | zero =>
      intro _ k hk
      omega
    | succ n ih =>
      intro hn
      have hprev := ih (by omega)
      obtain ⟨hlo, hhi⟩ := hprev.le_accepted hf
      have hne : accepted f n ≠ len := fun heq => hfin ⟨n, by omega, hprev, heq⟩
      cases hr : f n with
      | ok r => exact hprev.succ (by omega) hr
      | error e => exact absurd ⟨n, by omega, e, hprev, by omega, hr⟩ hfail
  obtain ⟨hlo, hhi⟩ := (hrun (len + 1) (Nat.le_refl _)).le_accepted hf
  omega

end Results

/-! ### The loop -/

/-- The system calls that offer the rest of the data, each after the one before it. -/
def offers (f : Nat → Except Int Nat) (call : List UInt8 → Call) (data : List UInt8) (n : Nat) :
    List Call :=
  (List.range n).map fun k => call (data.drop (accepted f k))

/-- The system calls that the loop makes. -/
def loopCalls (pl : Platform) (f : Nat → Except Int Nat) (call : List UInt8 → Call)
    (data : List UInt8) (n : Nat) : List Call :=
  (List.range n).map fun k => call (nextPiece pl data (accepted f k))

/-- The state with a record of these calls, made in this order. -/
def World.recorded (s : World) (cs : List Call) : World := cs.foldl World.called s

section Loop

variable {pl : Platform} {s : World} {x len n : Nat} {v : Socket} {f : Nat → Except Int Nat}
  {data : List UInt8} {call : Int → List UInt8 → Call}

lemma World.recorded_eq (s : World) (cs : List Call) :
    s.recorded cs =
      { s with kernel := { s.kernel with calls := cs.reverse ++ s.kernel.calls } } := by
  induction cs generalizing s with
  | nil => rfl
  | cons c cs ih =>
    change (s.called c).recorded cs = _
    rw [ih, World.called, List.reverse_cons, List.append_assoc]
    rfl

lemma World.socks_recorded (s : World) (cs : List Call) : (s.recorded cs).socks = s.socks := by
  rw [World.recorded_eq]

/-- The record says which calls there were. -/
lemma World.recorded_inj {cs ds : List Call} (h : s.recorded cs = s.recorded ds) : cs = ds := by
  rw [World.recorded_eq, World.recorded_eq] at h
  have hcalls := congrArg (fun t : World => t.kernel.calls) h
  exact List.reverse_injective (List.append_cancel_right hcalls)

lemma length_nextPiece (pl : Platform) (data : List UInt8) (sent : Nat) :
    (nextPiece pl data sent).length = pl.callLength (data.length - sent) := by
  have hle := pl.callLength_le (data.length - sent)
  rw [nextPiece, List.length_take, List.length_drop, Nat.min_eq_left hle]

/-- The whole rest is offered where its size fits. -/
lemma nextPiece_eq_drop (hfit : pl.windows = false ∨ data.length < 2 ^ 31) (sent : Nat) :
    nextPiece pl data sent = data.drop sent := by
  have hrest : pl.callLength (data.length - sent) = data.length - sent := by
    rw [Platform.callLength_eq_self_iff]
    exact hfit.imp_right (by omega)
  rw [nextPiece, hrest, ← List.length_drop, List.take_length]

lemma loopCalls_eq_offers (hfit : pl.windows = false ∨ data.length < 2 ^ 31)
    (f : Nat → Except Int Nat) (call : List UInt8 → Call) (n : Nat) :
    loopCalls pl f call data n = offers f call data n := by
  simp only [loopCalls, offers, nextPiece_eq_drop hfit]

/-- The first call shows whether the size fits. -/
lemma fits_of_loopCalls_eq {call : List UInt8 → Call}
    (hcall : ∀ piece piece', call piece = call piece' → piece = piece')
    (h : loopCalls pl f call data (n + 1) = offers f call data (n + 1)) :
    pl.windows = false ∨ data.length < 2 ^ 31 := by
  rw [loopCalls, offers, List.range_succ_eq_map, List.map_cons, List.map_cons] at h
  have hpiece := congrArg List.length (hcall _ _ (List.cons.inj h).1)
  rw [length_nextPiece, List.length_drop] at hpiece
  exact (pl.callLength_eq_self_iff data.length).mp hpiece

lemma recorded_loopCalls_succ (s : World) (f : Nat → Except Int Nat) (call : List UInt8 → Call)
    (data : List UInt8) (n : Nat) : s.recorded (loopCalls pl f call data (n + 1)) =
      (s.recorded (loopCalls pl f call data n)).called
        (call (nextPiece pl data (accepted f n))) := by
  rw [loopCalls, List.range_succ, List.map_append, World.recorded, List.foldl_append]
  rfl

/-- After `n` calls the loop goes on with the rest of the data and of the answers. -/
lemma sendLoop_running (hx : s.socks.get x = some v) (h : Running f data.length n) {m : Nat}
    (hm : n ≤ m) :
    sendLoop pl x call data 0 ((List.range m).map f) s =
      sendLoop pl x call data (accepted f n) ((List.range' n (m - n)).map f)
        (s.recorded (loopCalls pl f (call v.m_sockFD) data n)) := by
  induction n with
  | zero =>
    rw [Nat.sub_zero, ← List.range_eq_range']
    rfl
  | succ n ih =>
    obtain ⟨hlt, r, hr⟩ := h n (Nat.lt_succ_self n)
    have hrest : m - n = m - (n + 1) + 1 := by omega
    rw [ih (fun k hk => h k (by omega)) (by omega), hrest, List.range'_succ, List.map_cons, hr,
      sendLoop_ok (by rw [World.socks_recorded, hx]) hlt, recorded_loopCalls_succ, accepted, hr]
    rfl

/-- All is accepted: the loop returns. -/
lemma sendLoop_finishes (hx : s.socks.get x = some v) (h : Finishes f data.length n) {m : Nat}
    (hm : n ≤ m) :
    sendLoop pl x call data 0 ((List.range m).map f) s =
      .ok () (s.recorded (loopCalls pl f (call v.m_sockFD) data n)) := by
  rw [sendLoop_running hx h.1 hm, sendLoop_done h.2.ge]

/-- A call fails: the loop throws. -/
lemma sendLoop_fails (hx : s.socks.get x = some v) {e : Int} (h : Fails f data.length n e)
    {m : Nat} (hm : n < m) :
    sendLoop pl x call data 0 ((List.range m).map f) s =
      .throw (sysErr pl e) (s.recorded (loopCalls pl f (call v.m_sockFD) data (n + 1))) := by
  obtain ⟨hrun, hlt, he⟩ := h
  have hrest : m - n = m - (n + 1) + 1 := by omega
  rw [sendLoop_running hx hrun (Nat.le_of_lt hm), hrest, List.range'_succ, List.map_cons, he,
    sendLoop_error (by rw [World.socks_recorded, hx]) hlt, recorded_loopCalls_succ]

/-- A loop that delivers the data: it comes to an end, returns exactly when all is accepted
before a call fails, and then the pieces are the data; it throws exactly when a call fails
first, and then they are a part of it. Every call offers what has not been accepted yet. -/
structure Delivers (pl : Platform) (program : List (Except Int Nat) → SockProg Unit)
    (call : List UInt8 → Call) (data : List UInt8) (f : Nat → Except Int Nat) (s : World) :
    Prop where
  terminates : (∃ n ≤ data.length, Finishes f data.length n) ∨
    ∃ n < data.length, ∃ e, Fails f data.length n e
  returns : ∀ m, data.length ≤ m →
    ((∃ t, program ((List.range m).map f) s = .ok () t) ↔ ∃ n, Finishes f data.length n)
  throws : ∀ m, data.length ≤ m →
    ((∃ e t, program ((List.range m).map f) s = .throw e t) ↔ ∃ n e, Fails f data.length n e)
  delivered : ∀ n m, Finishes f data.length n → data.length ≤ m →
    program ((List.range m).map f) s = .ok () (s.recorded (offers f call data n)) ∧
      (pieces f data n).flatten = data
  interrupted : ∀ n e m, Fails f data.length n e → data.length ≤ m →
    program ((List.range m).map f) s =
        .throw (sysErr pl e) (s.recorded (offers f call data (n + 1))) ∧
      ∃ rest, rest ≠ [] ∧ (pieces f data n).flatten ++ rest = data

theorem sendLoop_delivers (hx : s.socks.get x = some v) (hf : Admissible pl f data.length)
    (hfit : pl.windows = false ∨ data.length < 2 ^ 31) :
    Delivers pl (sendLoop pl x call data 0) (call v.m_sockFD) data f s := by
  have hdone : ∀ n m, Finishes f data.length n → data.length ≤ m →
      sendLoop pl x call data 0 ((List.range m).map f) s =
        .ok () (s.recorded (offers f (call v.m_sockFD) data n)) := by
    intro n m h hm
    have hle := h.1.le_accepted hf
    have heq := h.2
    rw [← loopCalls_eq_offers hfit]
    exact sendLoop_finishes hx h (by omega)
  have hfail : ∀ n e m, Fails f data.length n e → data.length ≤ m →
      sendLoop pl x call data 0 ((List.range m).map f) s =
        .throw (sysErr pl e) (s.recorded (offers f (call v.m_sockFD) data (n + 1))) := by
    intro n e m h hm
    have hle := h.1.le_accepted hf
    have hlt := h.2.1
    rw [← loopCalls_eq_offers hfit]
    exact sendLoop_fails hx h (by omega)
  have hends := finishes_or_fails hf
  constructor
  · exact hends
  · intro m hm
    constructor
    · rintro ⟨t, ht⟩
      rcases hends with ⟨n, -, hn⟩ | ⟨n, -, e, hn⟩
      · exact ⟨n, hn⟩
      · rw [hfail n e m hn hm] at ht
        cases ht
    · rintro ⟨n, hn⟩
      exact ⟨_, hdone n m hn hm⟩
  · intro m hm
    constructor
    · rintro ⟨e, t, ht⟩
      rcases hends with ⟨n, -, hn⟩ | ⟨n, -, e', hn⟩
      · rw [hdone n m hn hm] at ht
        cases ht
      · exact ⟨n, e', hn⟩
    · rintro ⟨n, e, hn⟩
      exact ⟨_, _, hfail n e m hn hm⟩
  · intro n m hn hm
    refine ⟨hdone n m hn hm, ?_⟩
    rw [flatten_pieces, hn.2, List.take_length]
  · intro n e m hn hm
    refine ⟨hfail n e m hn hm, data.drop (accepted f n), ?_, ?_⟩
    · have hlt := hn.2.1
      intro hnil
      have hlen := congrArg List.length hnil
      rw [List.length_drop, List.length_nil] at hlen
      omega
    · rw [flatten_pieces, List.take_append_drop]

/-- A loop that delivers its data has offered it as a whole. -/
lemma fits_of_delivers (hx : s.socks.get x = some v)
    (hcall : ∀ piece piece', call v.m_sockFD piece = call v.m_sockFD piece' → piece = piece')
    (hf : Admissible pl f data.length)
    (h : Delivers pl (sendLoop pl x call data 0) (call v.m_sockFD) data f s) :
    pl.windows = false ∨ data.length < 2 ^ 31 := by
  rcases h.terminates with ⟨n, -, hn⟩ | ⟨n, -, e, hn⟩
  · have hle := hn.1.le_accepted hf
    have heq := hn.2
    cases n with
    | zero =>
      right
      rw [← heq, accepted]
      decide
    | succ n =>
      have hdone := (h.delivered (n + 1) data.length hn (Nat.le_refl _)).1
      rw [sendLoop_finishes hx hn (by omega)] at hdone
      exact fits_of_loopCalls_eq hcall (World.recorded_inj (Outcome.ok.inj hdone).2)
  · have hle := hn.1.le_accepted hf
    have hlt := hn.2.1
    have hthrown := (h.interrupted n e data.length hn (Nat.le_refl _)).1
    rw [sendLoop_fails hx hn (by omega)] at hthrown
    exact fits_of_loopCalls_eq hcall (World.recorded_inj (Outcome.throw.inj hthrown).2)

end Loop

/-! ### The overloads -/

section Overloads

variable {pl : Platform} {s : World} {x len : Nat} {buf : List UInt8}

/-- What is offered of the first `len` bytes. -/
lemma nextPiece_take (hlen : len ≤ buf.length) (sent : Nat) :
    nextPiece pl (buf.take len) sent = (buf.drop sent).take (pl.callLength (len - sent)) := by
  have htake : (buf.take len).length = len := by
    rw [List.length_take, Nat.min_eq_left hlen]
  rw [nextPiece, htake, List.drop_take, List.take_take,
    Nat.min_eq_left (pl.callLength_le (len - sent))]

/-- The loop on a pointer reads nothing but the first `len` bytes behind it. -/
lemma sendBufferLoop_eq (call : Int → List UInt8 → Call) (hlen : len ≤ buf.length) (sent : Nat)
    (answers : List (Except Int Nat)) :
    sendBufferLoop pl x call buf len sent answers =
      sendLoop pl x call (buf.take len) sent answers := by
  have htake : (buf.take len).length = len := by
    rw [List.length_take]
    omega
  induction answers generalizing sent with
  | nil => rw [sendBufferLoop, sendLoop, htake]
  | cons answer answers ih =>
    rw [sendBufferLoop, sendLoop, htake]
    by_cases hlt : sent < len
    · have hsize := pl.callLength_le (len - sent)
      rw [if_pos hlt, if_pos hlt, readBuffer, if_pos (by omega), nextPiece_take hlen]
      funext s
      change Prog.andThen (request pl x _ answer) _ s = Prog.andThen (request pl x _ answer) _ s
      simp only [Prog.andThen, ih]
    · rw [if_neg hlt, if_neg hlt]

lemma sendBufferLoop_delivers_iff {v : Socket} {f : Nat → Except Int Nat}
    (call : Int → List UInt8 → Call) (hx : s.socks.get x = some v) (hlen : len ≤ buf.length)
    (hcall : ∀ piece piece', call v.m_sockFD piece = call v.m_sockFD piece' → piece = piece')
    (hf : Admissible pl f len) :
    Delivers pl (sendBufferLoop pl x call buf len 0) (call v.m_sockFD) (buf.take len) f s ↔
      pl.windows = false ∨ len < 2 ^ 31 := by
  have hloop : sendBufferLoop pl x call buf len 0 = sendLoop pl x call (buf.take len) 0 :=
    funext (sendBufferLoop_eq call hlen 0)
  have htake : (buf.take len).length = len := by
    rw [List.length_take, Nat.min_eq_left hlen]
  rw [hloop]
  rw [← htake] at hf
  constructor
  · intro h
    have hfit := fits_of_delivers hx hcall hf h
    rwa [htake] at hfit
  · intro hfit
    apply sendLoop_delivers hx hf
    rwa [htake]

variable (pl) in
/-- The vector overloads are the pointer overloads on the vector's own bytes. -/
lemma send_eq_sendBuffer (x : Nat) (hlen : len ≤ buf.length) (flags : Nat)
    (answers : List (Except Int Nat)) :
    World.send pl x (buf.take len) flags answers = sendBuffer pl x buf len flags answers ∧
    ∀ toAddr addrLen, World.sendTo pl x (buf.take len) toAddr addrLen flags answers =
      sendBufferTo pl x buf len toAddr addrLen flags answers := by
  constructor
  · rw [World.send, sendBuffer, sendBufferLoop_eq _ hlen]
  · intro toAddr addrLen
    rw [World.sendTo, sendBufferTo, sendBufferLoop_eq _ hlen]

/-- The overload with an address casts it once and passes it on. -/
lemma sendBufferAddress_eq {y : Nat} {fr : Frame} {o : AddressObject} {st : SockaddrStorage}
    (h : s.addr.Holds pl y o) (hst : o.toSockaddrStorage pl fr = some st) (x : Nat)
    (buf : List UInt8) (len flags : Nat) (answers : List (Except Int Nat)) :
    sendBufferAddress pl x buf len fr y flags answers s =
      sendBufferTo pl x buf len st o.size flags answers s :=
  ofAddress_eq h hst fun addr n => sendBufferTo pl x buf len addr n flags answers

variable (pl) in
/-- Both loops deliver the data, for every sequence of results, exactly where its size fits the
type of the parameter of `::send`. The six overloads make the same calls. -/
theorem send_delivers_iff (s : World) (x : Nat) (v : Socket) (buf : List UInt8) (len flags : Nat)
    (f : Nat → Except Int Nat) (hx : s.socks.get x = some v) (hlen : len ≤ buf.length)
    (hf : Admissible pl f len) :
    (Delivers pl (sendBuffer pl x buf len flags)
      (fun piece => .send v.m_sockFD piece (flags ||| pl.MSG_NOSIGNAL)) (buf.take len) f s ∧
    (∀ toAddr addrLen, Delivers pl (sendBufferTo pl x buf len toAddr addrLen flags)
      (fun piece => .sendto v.m_sockFD piece (flags ||| pl.MSG_NOSIGNAL) toAddr addrLen)
      (buf.take len) f s) ∧
    (∀ answers, World.send pl x (buf.take len) flags answers =
        sendBuffer pl x buf len flags answers ∧
      ∀ toAddr addrLen, World.sendTo pl x (buf.take len) toAddr addrLen flags answers =
        sendBufferTo pl x buf len toAddr addrLen flags answers) ∧
    ∀ fr to_ o st, s.addr.Holds pl to_ o → o.toSockaddrStorage pl fr = some st → ∀ answers,
      World.sendAddress pl x (buf.take len) fr to_ flags answers s =
        sendBufferTo pl x buf len st o.size flags answers s ∧
      sendBufferAddress pl x buf len fr to_ flags answers s =
        sendBufferTo pl x buf len st o.size flags answers s) ↔
    pl.windows = false ∨ len < 2 ^ 31 := by
  have hsend := sendBufferLoop_delivers_iff
    (fun fd piece => .send fd piece (flags ||| pl.MSG_NOSIGNAL)) hx hlen
    (fun _ _ h => (Call.send.inj h).2.1) hf
  constructor
  · intro h
    exact hsend.mp h.1
  · intro hfit
    refine ⟨hsend.mpr hfit, ?_, fun answers => send_eq_sendBuffer pl x hlen flags answers, ?_⟩
    · intro toAddr addrLen
      exact (sendBufferLoop_delivers_iff
        (fun fd piece => .sendto fd piece (flags ||| pl.MSG_NOSIGNAL) toAddr addrLen) hx hlen
        (fun _ _ h => (Call.sendto.inj h).2.1) hf).mpr hfit
    · intro fr to_ o st ho hst answers
      refine ⟨?_, sendBufferAddress_eq ho hst x buf len flags answers⟩
      rw [sendAddress_eq ho hst, (send_eq_sendBuffer pl x hlen flags answers).2]

end Overloads

/-- A program with a socket whose descriptor is 3. -/
def oneSocket : World :=
  ⟨Addresses.initial, Store.empty.push ⟨true, 3, 2, 1, 0⟩,
    { Kernel.initial [] with descs := Store.empty.push { number := 3 } }⟩

/-- Three of four bytes, sent one by one. -/
theorem send_delivers_iff_linux :
    Delivers linuxHost (sendBuffer linuxHost 0 (bytes "abcd") 3 0)
      (fun piece => .send 3 piece (0 ||| linuxHost.MSG_NOSIGNAL)) (bytes "abc") (fun _ => .ok 1)
      oneSocket := by
  have hf : Admissible linuxHost (fun _ => .ok 1) 3 := by
    intro n r _ hlt hr
    cases hr
    rw [Platform.callLength_posix _ rfl]
    exact ⟨Nat.le_refl 1, by omega⟩
  exact ((send_delivers_iff linuxHost oneSocket 0 ⟨true, 3, 2, 1, 0⟩ (bytes "abcd") 3 0 _ rfl
    (by decide) hf).mpr (.inl rfl)).1

/-- Of 2^32 bytes a Windows program offers none, and they are not delivered even when the
first call fails. -/
theorem send_offers_nothing :
    ¬∀ f, Admissible (numericHost true false true) f (2 ^ 32) →
      Delivers (numericHost true false true)
        (sendBuffer (numericHost true false true) 0 (List.replicate (2 ^ 32) 0) (2 ^ 32) 0)
        (fun piece => .send 3 piece (0 ||| (numericHost true false true).MSG_NOSIGNAL))
        ((List.replicate (2 ^ 32) 0).take (2 ^ 32)) f oneSocket := by
  intro h
  have hf : Admissible (numericHost true false true) (fun _ => .error 10055) (2 ^ 32) := by
    intro n r _ _ hr
    cases hr
  have hfit := (sendBufferLoop_delivers_iff (v := ⟨true, 3, 2, 1, 0⟩)
    (fun fd piece => .send fd piece (0 ||| (numericHost true false true).MSG_NOSIGNAL)) rfl
    (List.length_replicate ..).ge (fun _ _ h => (Call.send.inj h).2.1) hf).mp (h _ hf)
  rcases hfit with hw | hlt
  · cases hw
  · omega

/-! ### Messages -/

/-- Where a message goes. -/
inductive Destination where
  | connected
  | sockaddr (addr : SockaddrStorage) (len : Nat)
  | address (fr : Frame) (to_ : Nat)

/-- A call of `send` on a socket with messages, and what the system answers. -/
structure Message where
  x : Nat
  destination : Destination
  data : List UInt8
  flags : Nat
  answers : List (Except Int Nat)

namespace Message

def exec (pl : Platform) (q : Message) : SockProg Unit :=
  match q.destination with
  | .connected => World.send pl q.x q.data q.flags q.answers
  | .sockaddr addr len => World.sendTo pl q.x q.data addr len q.flags q.answers
  | .address fr to_ => World.sendAddress pl q.x q.data fr to_ q.flags q.answers

/-- Each call of a loop that has sent `sent` bytes accepts all it is offered or fails. -/
def AllOrNothing (pl : Platform) (len : Nat) : Nat → List (Except Int Nat) → Prop
  | _, [] => True
  | _, .error _ :: _ => True
  | sent, .ok r :: answers =>
    sent < len → r = pl.callLength (len - sent) ∧ AllOrNothing pl len (sent + r) answers

/-- The system accepts a message as a whole or fails. -/
def Whole (pl : Platform) (q : Message) : Prop := AllOrNothing pl q.data.length 0 q.answers

/-- One call of `send` after the other. -/
def execAll (pl : Platform) : List Message → SockProg Unit
  | [] => pure ()
  | q :: qs => do
    q.exec pl
    execAll pl qs

end Message

/-- The payload that a call hands to the kernel. -/
def Call.payload : Call → Option (List UInt8)
  | .send _ data _ => some data
  | .sendto _ data _ _ _ => some data
  | _ => none

/-- Between the two states the kernel has been handed exactly these messages, in this order. -/
def Transmits (s t : World) (messages : List (List UInt8)) : Prop :=
  ∃ cs : List Call, t.kernel.calls = cs.reverse ++ s.kernel.calls ∧
    cs.map Call.payload = messages.map some

section Messages

variable {pl : Platform} {s t u : World} {x : Nat} {data : List UInt8}

lemma Transmits.refl (s : World) : Transmits s s [] := ⟨[], rfl, rfl⟩

lemma Transmits.trans {ms ms' : List (List UInt8)} (h : Transmits s t ms)
    (h' : Transmits t u ms') : Transmits s u (ms ++ ms') := by
  obtain ⟨cs, hcs, hms⟩ := h
  obtain ⟨cs', hcs', hms'⟩ := h'
  refine ⟨cs ++ cs', ?_, ?_⟩
  · rw [hcs', hcs, List.reverse_append, List.append_assoc]
  · rw [List.map_append, List.map_append, hms, hms']

/-- The record says which messages there were. -/
lemma Transmits.unique {ms ms' : List (List UInt8)} (h : Transmits s t ms)
    (h' : Transmits s t ms') : ms = ms' := by
  obtain ⟨cs, hcs, hms⟩ := h
  obtain ⟨cs', hcs', hms'⟩ := h'
  have hrev := List.append_cancel_right (hcs.symm.trans hcs')
  obtain rfl := List.reverse_injective hrev
  exact List.map_injective_iff.mpr (Option.some_injective _) (hms.symm.trans hms')

/-- The messages that there are among some data: the empty one is never sent. -/
def nonempty (ms : List (List UInt8)) : List (List UInt8) := ms.filter (fun m => !m.isEmpty)

/-- Too much data for the type of the parameter is still too much after each call. -/
lemma sendLoop_never_returns {call : Int → List UInt8 → Call} {answers : List (Except Int Nat)}
    {sent : Nat} (hw : pl.windows = true) (hbig : 2 ^ 31 ≤ data.length - sent)
    (hwhole : Message.AllOrNothing pl data.length sent answers) :
    sendLoop pl x call data sent answers s ≠ .ok () t := by
  have hlt : sent < data.length := by omega
  intro h
  induction answers generalizing s sent with
  | nil =>
    rw [sendLoop_waits hlt] at h
    cases h
  | cons answer answers ih =>
    cases hx : s.socks.get x with
    | none =>
      rw [sendLoop_dead hx hlt] at h
      cases h
    | some v =>
      cases answer with
      | error e =>
        rw [sendLoop_error hx hlt] at h
        cases h
      | ok r =>
        obtain ⟨rfl, hrest⟩ := hwhole hlt
        rw [sendLoop_ok hx hlt] at h
        have hstill := pl.callLength_rest hw hbig
        exact ih (by omega) hrest (by omega) h

/-- The loop makes one call for a message, and none for the empty one. -/
lemma sendLoop_transmits {call : Int → List UInt8 → Call} {answers : List (Except Int Nat)}
    (hcall : ∀ fd piece, (call fd piece).payload = some piece)
    (hwhole : Message.AllOrNothing pl data.length 0 answers)
    (h : sendLoop pl x call data 0 answers s = .ok () t) : Transmits s t (nonempty [data]) := by
  by_cases hdata : 0 < data.length
  · have hfit : pl.windows = false ∨ data.length < 2 ^ 31 := by
      by_contra hbig
      obtain ⟨hw, hlen⟩ := not_or.mp hbig
      exact sendLoop_never_returns (by simpa using hw) (by omega) hwhole h
    have hpiece : nextPiece pl data 0 = data := nextPiece_eq_drop hfit 0
    cases answers with
    | nil =>
      rw [sendLoop_waits hdata] at h
      cases h
    | cons answer answers =>
      cases hx : s.socks.get x with
      | none =>
        rw [sendLoop_dead hx hdata] at h
        cases h
      | some v =>
        cases answer with
        | error e =>
          rw [sendLoop_error hx hdata] at h
          cases h
        | ok r =>
          have hr : r = data.length := by
            rw [(hwhole hdata).1, Nat.sub_zero, pl.callLength_eq_self_iff]
            exact hfit
          rw [sendLoop_ok hx hdata, sendLoop_done (by omega), hpiece] at h
          cases h
          have hne : data ≠ [] := List.ne_nil_of_length_pos hdata
          refine ⟨[call v.m_sockFD data], rfl, ?_⟩
          simp [nonempty, hne, hcall]
  · rw [sendLoop_done (by omega)] at h
    cases h
    have hnil : data = [] := List.length_eq_zero_iff.mp (by omega)
    subst hnil
    exact Transmits.refl s

lemma addresses_kernel {α : Type} {m : AddrProg α} {a : α} (h : addresses m s = .ok a t) :
    t.kernel = s.kernel := by
  obtain ⟨u, -, rfl⟩ := Prog.exists_ok_of_zoom h
  rfl

/-- A call of `send` that returns has transmitted its data unless there is none. -/
theorem Message.exec_transmits {q : Message} (hwhole : q.Whole pl) (h : q.exec pl s = .ok () t) :
    Transmits s t (nonempty [q.data]) := by
  obtain ⟨x, destination, data, flags, answers⟩ := q
  cases destination with
  | connected => exact sendLoop_transmits (fun _ _ => rfl) hwhole h
  | sockaddr addr len => exact sendLoop_transmits (fun _ _ => rfl) hwhole h
  | address fr to_ =>
    obtain ⟨st, s₁, h₁, h⟩ := Prog.exists_ok_of_bind h
    obtain ⟨n, s₂, h₂, h⟩ := Prog.exists_ok_of_bind h
    obtain ⟨cs, hcs, hpay⟩ := sendLoop_transmits (fun _ _ => rfl) hwhole h
    refine ⟨cs, ?_, hpay⟩
    rw [hcs, addresses_kernel h₂, addresses_kernel h₁]

lemma Message.execAll_transmits {qs : List Message} (hwhole : ∀ q ∈ qs, q.Whole pl)
    (h : execAll pl qs s = .ok () t) : Transmits s t (nonempty (qs.map Message.data)) := by
  induction qs generalizing s with
  | nil =>
    cases h
    exact Transmits.refl _
  | cons q qs ih =>
    obtain ⟨⟨⟩, s', hq, hqs⟩ := Prog.exists_ok_of_bind h
    have hfirst := Message.exec_transmits (hwhole q List.mem_cons_self) hq
    have hrest := ih (fun p hp => hwhole p (List.mem_cons_of_mem q hp)) hqs
    have happend : nonempty ((q :: qs).map Message.data) =
        nonempty [q.data] ++ nonempty (qs.map Message.data) := by
      rw [nonempty, nonempty, nonempty, ← List.filter_append]
      rfl
    rw [happend]
    exact hfirst.trans hrest

lemma nonempty_eq_self {ms : List (List UInt8)} : nonempty ms = ms ↔ ∀ m ∈ ms, m ≠ [] := by
  rw [nonempty, List.filter_eq_self]
  apply forall₂_congr
  intro m _
  simp

variable (pl) in
/-- A call of `send` that returns has transmitted exactly its data as one message exactly when
there is data, and so with sequences of calls. -/
theorem one_send_one_message_iff (s t : World) (qs : List Message)
    (hwhole : ∀ q ∈ qs, q.Whole pl) :
    (∀ q ∈ qs, q.exec pl s = .ok () t → (Transmits s t [q.data] ↔ q.data ≠ [])) ∧
    (Message.execAll pl qs s = .ok () t →
      (Transmits s t (qs.map Message.data) ↔ ∀ q ∈ qs, q.data ≠ [])) := by
  have hiff : ∀ ms, Transmits s t (nonempty ms) → (Transmits s t ms ↔ ∀ m ∈ ms, m ≠ []) := by
    intro ms hms
    rw [← nonempty_eq_self]
    constructor
    · intro h
      exact hms.unique h
    · intro h
      rwa [h] at hms
  constructor
  · intro q hq h
    rw [hiff [q.data] (Message.exec_transmits (hwhole q hq) h)]
    simp
  · intro h
    rw [hiff _ (Message.execAll_transmits hwhole h)]
    simp

end Messages

/-- Three bytes to the connected peer. -/
def threeBytes : Message := ⟨0, .connected, [1, 2, 3], 0, [.ok 3]⟩

theorem one_send_one_message_iff_linux :
    Transmits oneSocket (oneSocket.called (.send 3 [1, 2, 3] linuxHost.MSG_NOSIGNAL))
      [[1, 2, 3]] := by
  have hwhole : ∀ q ∈ [threeBytes], q.Whole linuxHost := by
    intro q hq
    rw [List.mem_singleton] at hq
    subst hq
    exact fun _ => ⟨rfl, trivial⟩
  have hrun : threeBytes.exec linuxHost oneSocket =
      .ok () (oneSocket.called (.send 3 [1, 2, 3] linuxHost.MSG_NOSIGNAL)) := rfl
  have hone := (one_send_one_message_iff linuxHost oneSocket _ [threeBytes] hwhole).1
    threeBytes List.mem_cons_self hrun
  exact hone.mpr (List.cons_ne_nil 1 [2, 3])

/-- The empty message is not sent, although the call returns. -/
theorem one_send_no_message :
    ¬ ∀ (q : Message) (s t : World), q.Whole linuxHost → q.exec linuxHost s = .ok () t →
      Transmits s t [q.data] := by
  intro h
  have hwhole : (⟨0, .connected, [], 0, []⟩ : Message).Whole linuxHost := trivial
  obtain ⟨cs, hcs, hpay⟩ := h ⟨0, .connected, [], 0, []⟩ oneSocket oneSocket hwhole rfl
  have hnil : cs.length = 0 := by
    have hlen := congrArg List.length hcs
    rw [List.length_append, List.length_reverse] at hlen
    omega
  have hone : cs.length = 1 := by
    have hlen := congrArg List.length hpay
    rwa [List.length_map] at hlen
  omega

end SockLib
