import SockLib.Model.NumericHost
import SockLib.Model.Readiness
import SockLib.Proofs.SocketRules

/-!
# Readiness of sockets and of groups

A group call polls one entry for each element of its vector, and returns the elements that
the call on a single socket reports. All four functions convert their time-out in the same way.
-/

namespace SockLib

namespace Polling

variable (pl : Platform) {s : Polling} {x v events : Nat} {sock : Socket} {xs : List Nat}

/-- The state after a call of `poll`. -/
def polled (s : Polling) (pfds : List Pollfd) (timeout : Int32) : Polling :=
  { s with polls := ⟨pfds, timeout⟩ :: s.polls }

/-- All elements are live objects. -/
def AllLive (s : Polling) (xs : List Nat) : Prop :=
  ∀ x ∈ xs, ∃ sock, s.world.socks.get x = some sock

/-- The number that the entry of an object is made from. -/
def fdOf (s : Polling) (x : Nat) : Int := ((s.world.socks.get x).map Socket.m_sockFD).getD 0

lemma fdOf_eq (h : s.world.socks.get x = some sock) : s.fdOf x = sock.m_sockFD := by
  simp [fdOf, h]

/-- The entry of an object before the call. -/
def entry (s : Polling) (events x : Nat) : Pollfd := ⟨s.fdOf x, events, 0⟩

/-- Whether all the events are reported for an object. -/
def reported (s : Polling) (events : Nat) (revents : Int → Nat → Nat) (x : Nat) : Bool :=
  revents (s.fdOf x) events &&& events = events

/-! ### The loops -/

lemma this_eq (h : s.world.socks.get x = some sock) : sockets (World.this x) s = .ok sock s :=
  Prog.zoom_of_ok (World.this_eq h)

lemma vector_eq (h : s.vectors.get v = some xs) : vector v s = .ok xs s := by
  change Prog.demand (s.vectors.get v) Fault.danglingPointer s = _
  rw [h]
  rfl

lemma element_eq (h : s.vectors.get v = some xs) {i : Nat} {ys : List Nat}
    (hi : xs.drop i = x :: ys) : element v i s = .ok x s := by
  have hget : xs[i]? = some x := by
    rw [← List.head?_drop, hi]
    rfl
  refine (Prog.bind_of_ok (vector_eq h)).trans ?_
  rw [hget]
  rfl

lemma drop_succ {i : Nat} {ys : List Nat} (hi : xs.drop i = x :: ys) : xs.drop (i + 1) = ys := by
  rw [← List.drop_drop, hi]
  rfl

/-- The array has the entries of the elements, in their order. -/
lemma pollstructs_eq (h : s.vectors.get v = some xs) (hlive : s.AllLive xs) {i : Nat}
    {ys : List Nat} (hi : xs.drop i = ys) (pfds : List Pollfd) :
    pollstructs v events ys.length i pfds s = .ok (pfds ++ ys.map (s.entry events)) s := by
  induction ys generalizing i pfds with
  | nil =>
    rw [List.map_nil, List.append_nil]
    rfl
  | cons x ys ih =>
    have hmem : x ∈ xs := List.mem_of_mem_drop (hi ▸ List.mem_cons_self)
    obtain ⟨sock, hx⟩ := hlive x hmem
    refine (Prog.bind_of_ok (element_eq h hi)).trans ?_
    refine (Prog.bind_of_ok (this_eq hx)).trans ?_
    rw [ih (drop_succ hi), ← fdOf_eq hx, List.append_assoc]
    rfl

/-- The second loop runs over the entries and the elements side by side. -/
lemma readySockets_eq (h : s.vectors.get v = some xs) (revents : Int → Nat → Nat) {i : Nat}
    {ys : List Nat} (hi : xs.drop i = ys) (ready : List Nat) :
    readySockets v events (ys.map fun x => { s.entry events x with
        revents := revents (s.fdOf x) events }) i ready s =
      .ok (ready ++ ys.filter (s.reported events revents)) s := by
  induction ys generalizing i ready with
  | nil =>
    rw [List.filter_nil, List.append_nil]
    rfl
  | cons x ys ih =>
    rw [List.map_cons, readySockets]
    by_cases hr : revents (s.fdOf x) events &&& events = events
    · rw [if_pos hr, List.filter_cons_of_pos (by simpa [reported] using hr)]
      refine (Prog.bind_of_ok (element_eq h hi)).trans ?_
      rw [ih (drop_succ hi), List.append_assoc]
      rfl
    · rw [if_neg hr, List.filter_cons_of_neg (by simpa [reported] using hr)]
      exact ih (drop_succ hi) ready

/-! ### The calls -/

lemma ready_ok (h : s.world.socks.get x = some sock) (timeout : Int64)
    (revents : Int → Nat → Nat) :
    ready pl x events timeout (.ok revents) s =
      .ok (s.reported events revents x) (s.polled [s.entry events x] timeout.toInt32) := by
  refine (Prog.bind_of_ok (this_eq h)).trans ?_
  rw [reported, entry, fdOf_eq h]
  rfl

lemma ready_error (h : s.world.socks.get x = some sock) (timeout : Int64) (errno : Int) :
    ready pl x events timeout (.error errno) s =
      .throw (sysErr pl errno) (s.polled [s.entry events x] timeout.toInt32) := by
  refine (Prog.bind_of_ok (this_eq h)).trans ?_
  rw [entry, fdOf_eq h]
  rfl

lemma groupReady_ok (h : s.vectors.get v = some xs) (hlive : s.AllLive xs) (timeout : Int64)
    (revents : Int → Nat → Nat) :
    groupReady pl v events timeout (.ok revents) s =
      .ok (xs.filter (s.reported events revents))
        (s.polled (xs.map (s.entry events)) timeout.toInt32) := by
  refine (Prog.bind_of_ok (vector_eq h)).trans ?_
  refine (Prog.bind_of_ok (pollstructs_eq h hlive List.drop_zero [])).trans ?_
  refine (Prog.bind_of_ok rfl).trans ?_
  rw [List.nil_append, List.map_map]
  exact readySockets_eq (s := s.polled _ _) h revents List.drop_zero []

lemma groupReady_error (h : s.vectors.get v = some xs) (hlive : s.AllLive xs) (timeout : Int64)
    (errno : Int) :
    groupReady pl v events timeout (.error errno) s =
      .throw (sysErr pl errno) (s.polled (xs.map (s.entry events)) timeout.toInt32) := by
  refine (Prog.bind_of_ok (vector_eq h)).trans ?_
  exact Prog.bind_of_ok (pollstructs_eq h hlive List.drop_zero [])

/-- The call on one object is the member whose system call is recorded with the others. -/
theorem ready_refines (h : s.world.socks.get x = some sock) (timeout : Int64)
    (answer : PollAnswer) :
    World.ready pl x events timeout.toInt32.toInt
        (answer.map fun revents => revents sock.m_sockFD events) s.world =
      match ready pl x events timeout answer s with
      | .ok b _ => .ok b
          (s.world.called (.poll sock.m_sockFD events timeout.toInt32.toInt))
      | .throw e _ => .throw e
          (s.world.called (.poll sock.m_sockFD events timeout.toInt32.toInt))
      | .fault k => .fault k := by
  cases answer with
  | error errno =>
    rw [ready_error pl h]
    exact Prog.bind_of_throw (World.request_eq h _ _)
  | ok revents =>
    rw [ready_ok pl h, reported, fdOf_eq h]
    exact Prog.bind_of_ok (World.request_eq h _ _)

/-! ### Groups and single sockets -/

/-- A group call returns the elements of the vector for which the call on one object returns
true, or it throws and so does every call on one object. The objects and the vectors of the
caller are what they were. -/
def GroupAgrees (s : Polling) (xs : List Nat) (errno : Option Int) (group : PollProg (List Nat))
    (single : Nat → PollProg Bool) : Prop :=
  match errno with
  | none => ∃ (isReady : Nat → Bool) (t : Polling),
      (∀ x ∈ xs, ∃ u, single x s = .ok (isReady x) u) ∧
      group s = .ok (xs.filter isReady) t ∧ t.world = s.world ∧ t.vectors = s.vectors
  | some errno => (∃ t, group s = .throw (sysErr pl errno) t ∧ t.world = s.world ∧
        t.vectors = s.vectors) ∧
      ∀ x ∈ xs, ∃ u, single x s = .throw (sysErr pl errno) u

def errorOf (answer : PollAnswer) : Option Int :=
  match answer with
  | .ok _ => none
  | .error errno => some errno

lemma ready_groupAgrees (h : s.vectors.get v = some xs) (hlive : s.AllLive xs)
    (timeout timeout' : Int64) (answer : PollAnswer) :
    GroupAgrees pl s xs (errorOf answer) (groupReady pl v events timeout answer)
      (fun x => ready pl x events timeout' answer) := by
  cases answer with
  | ok revents =>
    refine ⟨s.reported events revents, _, ?_, groupReady_ok pl h hlive timeout revents, rfl, rfl⟩
    intro x hx
    obtain ⟨sock, hsock⟩ := hlive x hx
    exact ⟨_, ready_ok pl hsock timeout' revents⟩
  | error errno =>
    refine ⟨⟨_, groupReady_error pl h hlive timeout errno, rfl, rfl⟩, ?_⟩
    intro x hx
    obtain ⟨sock, hsock⟩ := hlive x hx
    exact ⟨_, ready_error pl hsock timeout' errno⟩

/-- Under one answer of the kernel, the group functions and the members agree. -/
theorem group_readiness_agrees (s : Polling) (v : Nat) (xs : List Nat)
    (h : s.vectors.get v = some xs) (hlive : s.AllLive xs) (timeout timeout' : Int64)
    (answer : PollAnswer) :
    GroupAgrees pl s xs (errorOf answer) (readReadySockets pl v timeout answer)
      (fun x => readReady pl x timeout' answer) ∧
    GroupAgrees pl s xs (errorOf answer) (writeReadySockets pl v timeout answer)
      (fun x => writeReady pl x timeout' answer) :=
  ⟨ready_groupAgrees pl h hlive timeout timeout' answer,
    ready_groupAgrees pl h hlive timeout timeout' answer⟩

/-- Two sockets, and a vector that names the first one twice. -/
def twoSockets : Polling where
  world := { World.initial true [] with
    socks := (Store.empty.push ⟨true, 3, 2, 1, 0⟩).push ⟨true, 4, 2, 1, 0⟩ }
  vectors := Store.empty.push [0, 1, 0]
  polls := []

lemma allLive_twoSockets : twoSockets.AllLive [0, 1, 0] := by
  intro x hx
  rcases List.mem_cons.mp hx with rfl | hx
  · exact ⟨_, rfl⟩
  · rcases List.mem_pair.mp hx with rfl | rfl
    · exact ⟨_, rfl⟩
    · exact ⟨_, rfl⟩

/-- Data has arrived on descriptor 3. -/
theorem group_readiness_agrees_linux :
    GroupAgrees linuxHost twoSockets [0, 1, 0] none
      (readReadySockets linuxHost 0 0 (.ok fun fd _ => if fd = 3 then 1 else 0))
      (fun x => readReady linuxHost x 0 (.ok fun fd _ => if fd = 3 then 1 else 0)) :=
  (group_readiness_agrees linuxHost twoSockets 0 [0, 1, 0] rfl allLive_twoSockets 0 0
    (.ok fun fd _ => if fd = 3 then 1 else 0)).1

/-! ### Time-outs -/

/-- The functions that wait for at most a given time. -/
inductive Wait where
  | readReady (x : Nat)
  | writeReady (x : Nat)
  | readReadySockets (v : Nat)
  | writeReadySockets (v : Nat)

def Wait.exec (timeout : Int64) (answer : PollAnswer) : Wait → PollProg Unit
  | .readReady x => discard (Polling.readReady pl x timeout answer)
  | .writeReady x => discard (Polling.writeReady pl x timeout answer)
  | .readReadySockets v => discard (Polling.readReadySockets pl v timeout answer)
  | .writeReadySockets v => discard (Polling.writeReadySockets pl v timeout answer)

/-- What a call refers to is there. -/
def Wait.Refers (s : Polling) : Wait → Prop
  | .readReady x => ∃ sock, s.world.socks.get x = some sock
  | .writeReady x => ∃ sock, s.world.socks.get x = some sock
  | .readReadySockets v => ∃ xs, s.vectors.get v = some xs ∧ s.AllLive xs
  | .writeReadySockets v => ∃ xs, s.vectors.get v = some xs ∧ s.AllLive xs

/-- The program polls, and every time it does the time-out is not negative and at least `timeout`
milliseconds, or as long as `poll` can wait. -/
def KeepsTimeout (s : Polling) (timeout : Int64) (m : PollProg Unit) : Prop :=
  ∃ t calls, (m s).resume = some t ∧ t.polls = calls ++ s.polls ∧ calls ≠ [] ∧
    ∀ c ∈ calls, 0 ≤ c.timeout.toInt ∧ min timeout.toInt (2 ^ 31 - 1) ≤ c.timeout.toInt

/-- Ending well or by the error of `poll`, a program has made one call. -/
def PollsOnce (s : Polling) (timeout : Int64) (m : PollProg Unit) : Prop :=
  ∃ t pfds, (m s).resume = some t ∧ t.polls = ⟨pfds, timeout.toInt32⟩ :: s.polls

lemma ready_pollsOnce (h : s.world.socks.get x = some sock) (timeout : Int64)
    (answer : PollAnswer) :
    PollsOnce s timeout (discard (ready pl x events timeout answer)) := by
  refine ⟨s.polled [s.entry events x] timeout.toInt32, _, ?_, rfl⟩
  cases answer with
  | ok revents =>
    rw [discard, Prog.bind_of_ok (ready_ok pl h timeout revents)]
    rfl
  | error errno =>
    rw [discard, Prog.bind_of_throw (ready_error pl h timeout errno)]
    rfl

lemma groupReady_pollsOnce (h : s.vectors.get v = some xs) (hlive : s.AllLive xs)
    (timeout : Int64) (answer : PollAnswer) :
    PollsOnce s timeout (discard (groupReady pl v events timeout answer)) := by
  refine ⟨s.polled (xs.map (s.entry events)) timeout.toInt32, _, ?_, rfl⟩
  cases answer with
  | ok revents =>
    rw [discard, Prog.bind_of_ok (groupReady_ok pl h hlive timeout revents)]
    rfl
  | error errno =>
    rw [discard, Prog.bind_of_throw (groupReady_error pl h hlive timeout errno)]
    rfl

lemma exec_pollsOnce {c : Wait} (hc : c.Refers s) (timeout : Int64) (answer : PollAnswer) :
    PollsOnce s timeout (c.exec pl timeout answer) := by
  cases c with
  | readReady x =>
    obtain ⟨sock, h⟩ := hc
    exact ready_pollsOnce pl h timeout answer
  | writeReady x =>
    obtain ⟨sock, h⟩ := hc
    exact ready_pollsOnce pl h timeout answer
  | readReadySockets v =>
    obtain ⟨xs, h, hlive⟩ := hc
    exact groupReady_pollsOnce pl h hlive timeout answer
  | writeReadySockets v =>
    obtain ⟨xs, h, hlive⟩ := hc
    exact groupReady_pollsOnce pl h hlive timeout answer

/-- The conversion keeps the low 32 bits and reads them as a signed number. -/
lemma toInt32_kept_iff {timeout : Int64} (h0 : 0 ≤ timeout.toInt) :
    0 ≤ timeout.toInt32.toInt ∧ min timeout.toInt (2 ^ 31 - 1) ≤ timeout.toInt32.toInt ↔
      timeout.toInt ≤ 2 ^ 31 - 1 ∨ timeout.toInt % 2 ^ 32 = 2 ^ 31 - 1 := by
  rw [Int64.toInt_toInt32]
  generalize timeout.toInt = t at h0 ⊢
  have hbmod : t.bmod (2 ^ 32) = if t % 2 ^ 32 < 2 ^ 31 then t % 2 ^ 32
      else t % 2 ^ 32 - 2 ^ 32 := Int.bmod_def t (2 ^ 32)
  rw [hbmod]
  split <;> omega

/-- A time-out that is not negative is kept exactly when it is a value of `int`, or its low
bits are those of the largest one. -/
theorem timeout_kept_iff (s : Polling) (c : Wait) (hc : c.Refers s) (timeout : Int64)
    (h0 : 0 ≤ timeout.toInt) (answer : PollAnswer) :
    KeepsTimeout s timeout (c.exec pl timeout answer) ↔
      timeout.toInt ≤ 2 ^ 31 - 1 ∨ timeout.toInt % 2 ^ 32 = 2 ^ 31 - 1 := by
  obtain ⟨t, pfds, ht, hpolls⟩ := exec_pollsOnce pl hc timeout answer
  rw [← toInt32_kept_iff h0]
  constructor
  · rintro ⟨t', calls, ht', hcalls, -, hall⟩
    obtain rfl : t = t' := Option.some.inj (ht.symm.trans ht')
    have heq : calls = [⟨pfds, timeout.toInt32⟩] := by
      apply List.append_cancel_right
      rw [← hcalls, hpolls]
      rfl
    exact hall ⟨pfds, timeout.toInt32⟩ (heq ▸ List.mem_singleton_self _)
  · intro hkept
    refine ⟨t, [⟨pfds, timeout.toInt32⟩], ht, hpolls, List.cons_ne_nil _ _, ?_⟩
    intro c hc
    rw [List.mem_singleton.mp hc]
    exact hkept

/-- A hundred milliseconds. -/
theorem timeout_kept_iff_linux : KeepsTimeout twoSockets 100
    ((Wait.readReadySockets 0).exec linuxHost 100 (.ok fun _ _ => 0)) :=
  (timeout_kept_iff linuxHost twoSockets (.readReadySockets 0) ⟨_, rfl, allLive_twoSockets⟩ 100
    (by decide) _).mpr (Or.inl (by decide))

/-- 25 days become a negative time-out, which is infinite, and 2 ^ 32 milliseconds become none. -/
theorem timeout_not_kept :
    (¬∀ (c : Wait) (timeout : Int64), c.Refers twoSockets → 0 ≤ timeout.toInt →
      KeepsTimeout twoSockets timeout (c.exec linuxHost timeout (.ok fun _ _ => 0))) ∧
    (2160000000 : Int64).toInt32.toInt < 0 ∧ (4294967296 : Int64).toInt32.toInt = 0 := by
  refine ⟨fun h => ?_, by decide, by decide⟩
  obtain ⟨t, calls, ht, hcalls, hne, hall⟩ := h (.readReady 0) 2160000000 ⟨_, rfl⟩ (by decide)
  obtain ⟨c, cs, rfl⟩ := List.exists_cons_of_ne_nil hne
  obtain rfl := Option.some.inj ht
  have hc := (hall c List.mem_cons_self).1
  obtain rfl := (List.cons.inj hcalls).1
  exact absurd hc (by decide)

end Polling

end SockLib
