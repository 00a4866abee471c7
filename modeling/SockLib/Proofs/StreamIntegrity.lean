import SockLib.Foundation.Runs
import SockLib.Model.Transfer
import SockLib.Proofs.SocketRules

/-!
# Nothing is lost on a stream

At every moment the received vectors followed by the queued bytes are the data of the calls
of `send`, in call order: all of it for a call that has returned, a prefix of it for one that
has thrown or is in progress. The invariant places the call in progress at a byte of its
data, from where the loop of `send` goes on.
-/

namespace SockLib

open World

variable {pl : Platform} {s : World} {x n r : Nat} {v : Socket}

/-- What a call of `send` has put into the stream. -/
def SendCall.Piece (pl : Platform) (c : SendCall) (piece : List UInt8) : Prop :=
  match c.status pl with
  | some .returned => piece = c.data
  | some _ => piece <+: c.data
  | none => False

/-- The stream is whole, and an empty vector is received only when it is also closed and at
its end. -/
def Transfer.Intact (pl : Platform) (t : Transfer) : Prop :=
  ∃ pieces, List.Forall₂ (SendCall.Piece pl) t.calls pieces ∧
    t.received.flatten ++ t.queue = pieces.flatten ∧
    ([] ∈ t.received → t.closed = true ∧ t.received.flatten = pieces.flatten)

/-! ### The loop of `send` -/

/-- What is accepted of the bytes offered is the next part of the data. -/
lemma take_nextPiece {data : List UInt8} (hr : r ≤ (nextPiece pl data n).length) :
    (nextPiece pl data n).take r = (data.drop n).take r := by
  rw [nextPiece, List.length_take] at hr
  rw [nextPiece, List.take_take, Nat.min_eq_left (by omega)]

lemma sendLoop_done {call : Int → List UInt8 → Call} {data : List UInt8} (h : data.length ≤ n)
    (answers : List (Except Int Nat)) : sendLoop pl x call data n answers s = .ok () s := by
  cases answers with
  | nil =>
    rw [sendLoop, if_neg (by omega)]
    rfl
  | cons answer answers =>
    rw [sendLoop, if_neg (by omega)]
    rfl

lemma sendLoop_waits {call : Int → List UInt8 → Call} {data : List UInt8} (h : n < data.length) :
    sendLoop pl x call data n [] s = .fault .noSuchAnswer := by
  rw [sendLoop, if_pos h]
  rfl

lemma sendLoop_ok (hx : s.socks.get x = some v) {call : Int → List UInt8 → Call}
    {data : List UInt8} (h : n < data.length) (answers : List (Except Int Nat)) :
    sendLoop pl x call data n (.ok r :: answers) s =
      sendLoop pl x call data (n + r) answers
        (s.called (call v.m_sockFD (nextPiece pl data n))) := by
  rw [sendLoop, if_pos h]
  exact Prog.bind_of_ok (request_eq hx _ _)

/-- A failing call leaves its record, with the bytes it offered. -/
lemma sendLoop_error (hx : s.socks.get x = some v) {call : Int → List UInt8 → Call}
    {data : List UInt8} (h : n < data.length) (e : Int) (answers : List (Except Int Nat)) :
    sendLoop pl x call data n (.error e :: answers) s =
      .throw (sysErr pl e) (s.called (call v.m_sockFD (nextPiece pl data n))) := by
  rw [sendLoop, if_pos h]
  exact Prog.bind_of_throw (request_eq hx _ _)

lemma sendLoop_dead (hx : s.socks.get x = none) {call : Int → List UInt8 → Call}
    {data : List UInt8} (h : n < data.length) (answer : Except Int Nat)
    (answers : List (Except Int Nat)) :
    sendLoop pl x call data n (answer :: answers) s = .fault .danglingPointer := by
  rw [sendLoop, if_pos h]
  exact Prog.bind_of_fault (request_dead hx _ _)

namespace SendCall

variable {c : SendCall}

/-- The call has sent `n` bytes and waits for the system call that offers the rest. -/
structure Waits (pl : Platform) (c : SendCall) (n : Nat) : Prop where
  rest : n < c.data.length
  goesOn : ∃ s, s.socks = c.program.socks ∧ ∀ answers,
    World.send pl c.x c.data 0 (c.answers ++ answers) c.program =
      sendLoop pl c.x (fun fd piece => .send fd piece (0 ||| pl.MSG_NOSIGNAL)) c.data n answers s

lemma waits_fresh {program : World} {data : List UInt8} (h : 0 < data.length) :
    Waits pl ⟨program, x, data, []⟩ 0 :=
  ⟨h, program, rfl, fun _ => rfl⟩

lemma status_fresh (pl : Platform) (program : World) (x : Nat) {data : List UInt8}
    (h : data.length ≤ 0) : status pl ⟨program, x, data, []⟩ = some .returned := by
  rw [status, outcome, World.send, sendLoop_done h]

lemma Waits.running (h : Waits pl c n) : c.status pl = some .running := by
  obtain ⟨s, _, hgo⟩ := h.goesOn
  have hout := hgo []
  rw [List.append_nil, sendLoop_waits h.rest] at hout
  rw [status, outcome, hout]

/-- The system call in progress offers what is not sent yet. -/
lemma Waits.offers (h : Waits pl c n) {piece : List UInt8} (hp : c.offered pl = some piece) :
    piece = nextPiece pl c.data n ∧ ∃ v, c.program.socks.get c.x = some v := by
  obtain ⟨s, hs, hgo⟩ := h.goesOn
  rw [offered, outcome, answer, hgo] at hp
  cases hx : s.socks.get c.x with
  | none =>
    rw [sendLoop_dead hx h.rest] at hp
    cases hp
  | some v =>
    rw [sendLoop_error hx h.rest] at hp
    cases hp
    exact ⟨rfl, v, hs ▸ hx⟩

lemma Waits.sent (h : Waits pl c n) (hx : c.program.socks.get c.x = some v)
    (hr : n + r < c.data.length) : (c.answer (.ok r)).Waits pl (n + r) := by
  obtain ⟨s, hs, hgo⟩ := h.goesOn
  refine ⟨hr, s.called (.send v.m_sockFD (nextPiece pl c.data n) (0 ||| pl.MSG_NOSIGNAL)), hs, ?_⟩
  intro answers
  rw [answer, List.append_assoc, hgo]
  exact sendLoop_ok (hs ▸ hx) h.rest answers

lemma Waits.returned (h : Waits pl c n) (hx : c.program.socks.get c.x = some v)
    (hr : c.data.length ≤ n + r) : (c.answer (.ok r)).status pl = some .returned := by
  obtain ⟨s, hs, hgo⟩ := h.goesOn
  rw [status, outcome, answer, hgo, sendLoop_ok (hs ▸ hx) h.rest, sendLoop_done hr]

lemma Waits.threw (h : Waits pl c n) (hx : c.program.socks.get c.x = some v) (e : Int) :
    (c.answer (.error e)).status pl = some .threw := by
  obtain ⟨s, hs, hgo⟩ := h.goesOn
  rw [status, outcome, answer, hgo, sendLoop_error (hs ▸ hx) h.rest]

/-- What a call has put into the stream by now, whether it is in progress or has ended. -/
def Progress (pl : Platform) (c : SendCall) (bytes : List UInt8) : Prop :=
  (∃ n, c.Waits pl n ∧ bytes = c.data.take n) ∨
    (c.status pl ≠ some .running ∧ c.Piece pl bytes)

lemma progress_fresh (program : World) (data : List UInt8) :
    Progress pl ⟨program, x, data, []⟩ [] := by
  by_cases h : 0 < data.length
  · left
    exact ⟨0, waits_fresh h, rfl⟩
  · right
    have hret := status_fresh pl program x (by omega : data.length ≤ 0)
    have hnil : data = [] := List.length_eq_zero_iff.mp (by omega)
    refine ⟨by rw [hret]; decide, ?_⟩
    rw [Piece, hret]
    exact hnil.symm

/-- A call that has put `r` more bytes. -/
lemma Waits.progress_sent (h : Waits pl c n) (hx : c.program.socks.get c.x = some v) (r : Nat) :
    (c.answer (.ok r)).Progress pl (c.data.take n ++ (c.data.drop n).take r) := by
  rw [← List.take_add]
  by_cases hlt : n + r < c.data.length
  · left
    exact ⟨n + r, h.sent hx hlt, rfl⟩
  · right
    have hret := h.returned hx (by omega : c.data.length ≤ n + r)
    refine ⟨by rw [hret]; decide, ?_⟩
    rw [Piece, hret]
    exact List.take_of_length_le (by omega)

lemma Waits.progress_failed (h : Waits pl c n) (hx : c.program.socks.get c.x = some v) (e : Int) :
    (c.answer (.error e)).Progress pl (c.data.take n) := by
  right
  have hthrew := h.threw hx e
  refine ⟨by rw [hthrew]; decide, ?_⟩
  rw [Piece, hthrew]
  exact List.take_prefix n c.data

end SendCall

/-! ### The invariant -/

namespace Transfer

variable {t t' : Transfer}

/-- An empty vector has been received only at the end of a closed stream. -/
def EndsOnce (t : Transfer) : Prop := [] ∈ t.received → t.closed = true ∧ t.queue = []

lemma EndsOnce.take (h : t.EndsOnce) {bufSize : Nat}
    (hn : 0 < n ∧ n ≤ bufSize ∧ n ≤ t.queue.length ∨ n = 0 ∧ t.queue = [] ∧ t.closed = true) :
    EndsOnce { t with queue := t.queue.drop n, received := t.received ++ [t.queue.take n] } := by
  intro he
  obtain hold | hnew := List.mem_append.mp he
  · obtain ⟨hclosed, hq⟩ := h hold
    exact ⟨hclosed, by simp [hq]⟩
  · have hnil : t.queue.take n = [] := (List.mem_singleton.mp hnew).symm
    obtain ⟨hpos, _, hlen⟩ | ⟨_, hq, hclosed⟩ := hn
    · have hlength := congrArg List.length hnil
      rw [List.length_take, List.length_nil] at hlength
      omega
    · exact ⟨hclosed, by simp [hq]⟩

structure Placed (pl : Platform) (t : Transfer) (pieces : List (List UInt8))
    (rest : List UInt8) : Prop where
  ended : List.Forall₂ (SendCall.Piece pl) t.ended pieces
  current : match t.current with
    | some c => ∃ n, c.Waits pl n ∧ rest = c.data.take n
    | none => rest = []
  stream : t.received.flatten ++ t.queue = pieces.flatten ++ rest
  ends : t.EndsOnce

lemma placed_empty : Placed pl empty [] [] where
  ended := .nil
  current := rfl
  stream := rfl
  ends := fun h => by cases h

theorem Placed.intact {pieces : List (List UInt8)} {rest : List UInt8}
    (h : Placed pl t pieces rest) : t.Intact pl := by
  have hcur := h.current
  cases hc : t.current with
  | none =>
    rw [hc] at hcur
    have hcalls : t.calls = t.ended := by
      rw [calls, hc]
      exact List.append_nil _
    have hstream := h.stream
    rw [show rest = [] from hcur, List.append_nil] at hstream
    refine ⟨pieces, hcalls ▸ h.ended, hstream, fun he => ?_⟩
    obtain ⟨hclosed, hq⟩ := h.ends he
    exact ⟨hclosed, by rw [← hstream, hq, List.append_nil]⟩
  | some c =>
    rw [hc] at hcur
    obtain ⟨n, hw, hrest⟩ := hcur
    have hpiece : c.Piece pl rest := by
      rw [SendCall.Piece, hw.running, hrest]
      exact List.take_prefix n c.data
    have hcalls : t.calls = t.ended ++ [c] := by rw [calls, hc]; rfl
    have hflat : (pieces ++ [rest]).flatten = pieces.flatten ++ rest := by simp
    refine ⟨pieces ++ [rest], ?_, ?_, fun he => ?_⟩
    · rw [hcalls]
      exact List.rel_append h.ended (.cons hpiece .nil)
    · rw [hflat]
      exact h.stream
    · obtain ⟨hclosed, hq⟩ := h.ends he
      refine ⟨hclosed, ?_⟩
      rw [hflat, ← h.stream, hq, List.append_nil]

/-- A call that goes on stays in progress or joins those that have ended. -/
lemma proceed_placed {pieces : List (List UInt8)} {bytes : List UInt8} {c : SendCall}
    (hended : List.Forall₂ (SendCall.Piece pl) t.ended pieces) (hc : c.Progress pl bytes)
    (hstream : t.received.flatten ++ t.queue = pieces.flatten ++ bytes) (hends : t.EndsOnce)
    (h : t.proceed pl c = some t') : ∃ pieces rest, Placed pl t' pieces rest := by
  obtain ⟨n, hw, hbytes⟩ | ⟨hstatus, hpiece⟩ := hc
  · rw [proceed, hw.running] at h
    cases h
    exact ⟨pieces, bytes, hended, ⟨n, hw, hbytes⟩, hstream, hends⟩
  · have hjoined : Placed pl { t with ended := t.ended ++ [c], current := none }
        (pieces ++ [bytes]) [] := by
      refine ⟨List.rel_append hended (.cons hpiece .nil), rfl, ?_, hends⟩
      simpa using hstream
    unfold proceed at h
    split at h
    · contradiction
    · cases h
      exact ⟨_, _, hjoined⟩
    · cases h

lemma transmit_placed {pieces : List (List UInt8)} {rest : List UInt8}
    (hp : Placed pl t pieces rest) {answer : Except Int Nat}
    (h : t.transmit pl answer = some t') : ∃ pieces rest, Placed pl t' pieces rest := by
  obtain ⟨c, hcur, h⟩ := Option.bind_eq_some_iff.mp h
  obtain ⟨offered, ho, h⟩ := Option.bind_eq_some_iff.mp h
  have hplace := hp.current
  rw [hcur] at hplace
  obtain ⟨n, hw, rfl⟩ := hplace
  obtain ⟨rfl, v, hx⟩ := hw.offers ho
  cases answer with
  | error e =>
    exact proceed_placed hp.ended (hw.progress_failed hx e) hp.stream hp.ends h
  | ok r =>
    simp only at h
    split at h
    · next hr =>
      rw [take_nextPiece hr.2.2] at h
      have hstream : t.received.flatten ++ (t.queue ++ (c.data.drop n).take r) =
          pieces.flatten ++ (c.data.take n ++ (c.data.drop n).take r) := by
        rw [← List.append_assoc, hp.stream, List.append_assoc]
      have hends : EndsOnce { t with queue := t.queue ++ (c.data.drop n).take r } := by
        intro he
        have hclosed := (hp.ends he).1
        rw [hr.1] at hclosed
        cases hclosed
      exact proceed_placed (t := { t with queue := t.queue ++ (c.data.drop n).take r })
        hp.ended (hw.progress_sent hx r) hstream hends h
    · cases h

/-- `receive` returns the payload: the buffer of zeros is overwritten and cut to its size. -/
lemma receive_ok (hx : s.socks.get x = some v) {bufSize : Nat} {payload : List UInt8}
    (hle : payload.length ≤ bufSize) (flags : Nat) :
    World.receive pl x bufSize flags (.ok payload) s = .ok payload
      (s.called (.recv v.m_sockFD (pl.callLength bufSize) (flags ||| pl.MSG_NOSIGNAL))) := by
  rw [World.receive, Prog.bind_of_ok (request_eq hx _ _), receivedVector_of_le hle]
  rfl

/-- Whatever the answer, an object that is gone cannot be used. -/
lemma receive_dead (hx : s.socks.get x = none) (bufSize flags : Nat)
    (answer : Except Int (List UInt8)) :
    World.receive pl x bufSize flags answer s = .fault .danglingPointer :=
  Prog.bind_of_fault (request_dead hx _ _)

lemma receive_error (hx : s.socks.get x = some v) (bufSize flags : Nat) (e : Int) :
    World.receive pl x bufSize flags (.error e) s = .throw (sysErr pl e)
      (s.called (.recv v.m_sockFD (pl.callLength bufSize) (flags ||| pl.MSG_NOSIGNAL))) :=
  Prog.bind_of_throw (request_eq hx _ _)

lemma receive_placed {pieces : List (List UInt8)} {rest : List UInt8}
    (hp : Placed pl t pieces rest) {program : World} {y bufSize : Nat} {answer : Except Int Nat}
    (h : t.receive pl program y bufSize answer = some t') : Placed pl t' pieces rest := by
  cases hy : program.socks.get y with
  | none =>
    cases answer with
    | error e =>
      rw [receive, receive_dead hy] at h
      cases h
    | ok n =>
      rw [receive, receive_dead hy] at h
      split at h <;> cases h
  | some w =>
    cases answer with
    | error e =>
      rw [receive, receive_error hy] at h
      cases h
      exact hp
    | ok n =>
      rw [receive] at h
      split at h
      · next hn =>
        have hle : (t.queue.take n).length ≤ bufSize := by
          rw [List.length_take]
          omega
        rw [receive_ok hy hle] at h
        cases h
        refine ⟨hp.ended, hp.current, ?_, hp.ends.take hn⟩
        rw [← hp.stream]
        simp
      · cases h

lemma step_placed {op : TransferOp} (hp : ∃ pieces rest, Placed pl t pieces rest)
    (h : t.step pl op = some t') : ∃ pieces rest, Placed pl t' pieces rest := by
  obtain ⟨pieces, rest, hp⟩ := hp
  cases op with
  | call program x data =>
    have hcur := hp.current
    rw [step, call] at h
    cases hc : t.current with
    | some c =>
      rw [hc] at h
      cases h
    | none =>
      rw [hc] at h hcur
      have hrest : rest = [] := hcur
      exact proceed_placed hp.ended (SendCall.progress_fresh program data)
        (hrest ▸ hp.stream) hp.ends h
  | transmit answer => exact transmit_placed hp h
  | receive program y bufSize answer =>
    rw [step] at h
    split at h
    · exact ⟨pieces, rest, receive_placed hp h⟩
    · cases h
  | close =>
    cases h
    exact ⟨pieces, rest, hp.ended, hp.current, hp.stream, fun he => ⟨rfl, (hp.ends he).2⟩⟩

end Transfer

/-- Whatever the sizes of the partial sends and receives and however they interleave, nothing
is lost, duplicated or reordered. -/
theorem stream_integrity (pl : Platform) (ops : List TransferOp) :
    Along (Transfer.step pl) (Transfer.Intact pl) Transfer.empty ops := by
  apply along_of_step (I := fun t => ∃ pieces rest, Transfer.Placed pl t pieces rest)
  · intro t ⟨pieces, rest, hp⟩
    exact hp.intact
  · intro t op t' hp h
    exact Transfer.step_placed hp h
  · exact ⟨[], [], Transfer.placed_empty⟩

/-- A send split in two with a receive between its system calls, then one that fails midway. -/
example :
    let program := { World.initial true [] with socks := Store.empty.push ⟨true, 3, 1, 1, 0⟩ }
    (run (Transfer.step linuxHost) Transfer.empty
      [.call program 0 [1, 2, 3], .transmit (.ok 2), .receive program 0 1 (.ok 1),
        .transmit (.ok 1), .call program 0 [4, 5], .transmit (.ok 1), .transmit (.error 32),
        .receive program 0 9 (.ok 3), .close, .receive program 0 9 (.ok 0)]).map
        (fun t => (t.received, t.calls.map (SendCall.status linuxHost))) =
    some ([[1], [2, 3, 4], []], [some .returned, some .threw]) := by
  rfl

end SockLib
