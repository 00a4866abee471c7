import SockLib.Model.EchoServer
import SockLib.Proofs.Decoding
import SockLib.Proofs.Destruction
import SockLib.Proofs.Transmission
import SockLib.Proofs.Vectors

/-!
# The calls of the echo server

What each call of the loop does when its object is there. Only `accept`, `push_back` and `erase`
change the sockets.
-/

namespace SockLib

variable {pl : Platform}

namespace World

variable {s t : World} {x l : Nat} {v w : Socket}

/-! ### Calls that leave everything as it is -/

lemma recorded_append (s : World) (cs ds : List Call) :
    s.recorded (cs ++ ds) = (s.recorded cs).recorded ds := List.foldl_append

lemma linear_recorded (h : Linear s) (cs : List Call) : Linear (s.recorded cs) := by
  rw [recorded_eq]
  exact linear_of_owned h (fun _ => Iff.rfl) h.sole rfl rfl rfl

lemma ready_spec (hx : s.socks.get x = some v) (events : Nat) (timeout : Int)
    (answer : Except Int Nat) :
    Prog.wp (ready pl x events timeout answer)
      (fun b t => (∃ cs, t = s.recorded cs) ∧
        ∃ r, answer = .ok r ∧ b = decide (r &&& events = events))
      (fun _ t => (∃ cs, t = s.recorded cs) ∧ ∃ errno, answer = .error errno) (fun _ => False)
      s := by
  rw [ready, Prog.wp_bind, wp_request hx]
  exact ⟨fun r hr => ⟨⟨[_], rfl⟩, r, hr, rfl⟩, fun errno herr => ⟨⟨[_], rfl⟩, errno, herr⟩⟩

/-- Nothing is received exactly when the vector is empty. -/
lemma isEmpty_receivedVector (bufSize : Nat) (payload : List UInt8) :
    (receivedVector bufSize payload).isEmpty = payload.isEmpty := by
  have hlen := length_receivedVector bufSize payload
  rw [Bool.eq_iff_iff, List.isEmpty_iff_length_eq_zero, List.isEmpty_iff_length_eq_zero, hlen]

lemma receive_spec (hx : s.socks.get x = some v) (bufSize flags : Nat)
    (answer : Except Int (List UInt8)) :
    Prog.wp (receive pl x bufSize flags answer)
      (fun message t => (∃ cs, t = s.recorded cs) ∧
        ∃ payload, answer = .ok payload ∧ message = receivedVector bufSize payload)
      (fun _ t => (∃ cs, t = s.recorded cs) ∧ ∃ errno, answer = .error errno) (fun _ => False)
      s := by
  rw [receive, Prog.wp_bind, wp_request hx]
  exact ⟨fun payload hp => ⟨⟨[_], rfl⟩, payload, hp, rfl⟩,
    fun errno herr => ⟨⟨[_], rfl⟩, errno, herr⟩⟩

lemma sendLoop_recorded (hx : s.socks.get x = some v) (call : Int → List UInt8 → Call)
    (data : List UInt8) (sent : Nat) (answers : List (Except Int Nat)) :
    Prog.wp (sendLoop pl x call data sent answers) (fun _ t => ∃ cs, t = s.recorded cs)
      (fun _ t => ∃ cs, t = s.recorded cs) (· ≠ .danglingPointer) s := by
  induction answers generalizing sent s with
  | nil =>
    rw [sendLoop, Prog.wp_ite]
    split
    · exact fun h => by cases h
    · exact ⟨[], rfl⟩
  | cons answer answers ih =>
    rw [sendLoop, Prog.wp_ite]
    split
    · rw [Prog.wp_bind, wp_request hx]
      refine ⟨fun r _ => ?_, fun _ _ => ⟨[_], rfl⟩⟩
      have hrest := ih (s := s.called (call v.m_sockFD (nextPiece pl data sent))) hx (sent + r)
      apply Prog.wp_mono hrest
      · rintro _ t ⟨cs, rfl⟩
        exact ⟨_ :: cs, rfl⟩
      · rintro _ t ⟨cs, rfl⟩
        exact ⟨_ :: cs, rfl⟩
      · intro _ hf
        exact hf
    · exact ⟨[], rfl⟩

lemma notEquals_eq (hl : s.socks.get l = some w) (hx : s.socks.get x = some v) :
    notEquals l x s = .ok (decide (w.m_sockFD ≠ v.m_sockFD)) s := by
  have hl' : this l s = .ok w s := by
    change (Prog.demand (s.socks.get l) Fault.danglingPointer : SockProg Socket) s = _
    rw [hl]
    rfl
  have hx' : this x s = .ok v s := by
    change (Prog.demand (s.socks.get x) Fault.danglingPointer : SockProg Socket) s = _
    rw [hx]
    rfl
  rw [notEquals, Prog.bind_of_ok hl', Prog.bind_of_ok hx']
  rfl

variable (pl) in
/-- The answers to one call of `send` with data of this length: one for each system call, which
fails or accepts at least one of the bytes offered. -/
def Suffice (len : Nat) (answers : List (Except Int Nat)) : Prop :=
  ∃ f m, answers = (List.range m).map f ∧ len ≤ m ∧ Admissible pl f len

/-- A call that gets all its answers comes to its end. -/
lemma sendLoop_covered (hx : s.socks.get x = some v) (call : Int → List UInt8 → Call)
    {data : List UInt8} {answers : List (Except Int Nat)} (ha : Suffice pl data.length answers) :
    Prog.wp (sendLoop pl x call data 0 answers) (fun _ t => ∃ cs, t = s.recorded cs)
      (fun _ t => ∃ cs, t = s.recorded cs) (fun _ => False) s := by
  obtain ⟨f, m, rfl, hm, hf⟩ := ha
  rcases finishes_or_fails hf with ⟨n, hn, hfin⟩ | ⟨n, hn, e, hfail⟩
  · exact Prog.wp_of_eq_ok (sendLoop_finishes hx hfin (by omega)) ⟨_, rfl⟩
  · unfold Prog.wp
    rw [sendLoop_fails hx hfail (by omega)]
    exact ⟨_, rfl⟩

/-- Sending on changes nothing but the record, if this is so for each call of `send`. -/
lemma sendOn_recorded {F : Fault → Prop} (hl : ∃ w, s.socks.get l = some w)
    (message : List UInt8) (answers : Nat → List (Except Int Nat)) {xs : List Nat}
    (hxs : ∀ x ∈ xs, ∃ v, s.socks.get x = some v)
    (hsend : ∀ x ∈ xs, x ≠ l → ∀ (u : World) v, u.socks.get x = some v →
      Prog.wp (send pl x message 0 (answers x)) (fun _ t => ∃ cs, t = u.recorded cs)
        (fun _ t => ∃ cs, t = u.recorded cs) F u) :
    Prog.wp (sendOn pl l message answers xs) (fun _ t => ∃ cs, t = s.recorded cs)
      (fun _ t => ∃ cs, t = s.recorded cs) F s := by
  induction xs generalizing s with
  | nil => exact ⟨[], rfl⟩
  | cons x xs ih =>
    obtain ⟨w, hw⟩ := hl
    obtain ⟨v, hv⟩ := hxs x List.mem_cons_self
    have hrest : ∀ cs, Prog.wp (sendOn pl l message answers xs) (fun _ t => ∃ cs, t = s.recorded cs)
        (fun _ t => ∃ cs, t = s.recorded cs) F (s.recorded cs) := by
      intro cs
      have hlive : ∀ y, (s.recorded cs).socks.get y = s.socks.get y := by
        intro y
        rw [socks_recorded]
      apply Prog.wp_mono (ih (s := s.recorded cs) ⟨w, (hlive l).trans hw⟩ (fun y hy => ?_)
        fun y hy => hsend y (List.mem_cons_of_mem x hy))
      · rintro _ t ⟨ds, rfl⟩
        exact ⟨cs ++ ds, (recorded_append s cs ds).symm⟩
      · rintro _ t ⟨ds, rfl⟩
        exact ⟨cs ++ ds, (recorded_append s cs ds).symm⟩
      · intro _ hf
        exact hf
      · rw [hlive y]
        exact hxs y (List.mem_cons_of_mem x hy)
    rw [sendOn, Prog.wp_bind]
    apply Prog.wp_of_eq_ok (notEquals_eq hw hv)
    rw [Prog.wp_ite]
    split
    · next hne =>
      have hxl : x ≠ l := by
        rintro rfl
        rw [hw] at hv
        cases hv
        exact of_decide_eq_true hne rfl
      rw [Prog.wp_bind]
      apply Prog.wp_mono (hsend x List.mem_cons_self hxl s v hv)
      · rintro _ _ ⟨cs, rfl⟩
        exact hrest cs
      · rintro _ _ ⟨cs, rfl⟩
        exact ⟨cs, rfl⟩
      · intro _ hf
        exact hf
    · exact hrest []

/-- The first `n` calls of a `send`. -/
def sendCalls (pl : Platform) (f : Nat → Except Int Nat) (v : Socket) (message : List UInt8)
    (n : Nat) : List Call :=
  offers f (fun piece => .send v.m_sockFD piece (0 ||| pl.MSG_NOSIGNAL)) message n

/-- A message is sent on. The others get all of it one after the other, up to the first one whose
`send` fails; those who come after that one get nothing. -/
inductive Round (pl : Platform) (s : World) (f : Nat → Nat → Except Int Nat)
    (message : List UInt8) : List Nat → List Call → Option Exn → Prop where
  | done : Round pl s f message [] [] none
  | sent {x : Nat} {v : Socket} {n : Nat} {xs : List Nat} {cs : List Call} {thrown : Option Exn}
      (hx : s.socks.get x = some v) (h : Finishes (f x) message.length n)
      (hrest : Round pl s f message xs cs thrown) :
      Round pl s f message (x :: xs) (sendCalls pl (f x) v message n ++ cs) thrown
  | failed {x : Nat} {v : Socket} {n : Nat} {xs : List Nat} {e : Int}
      (hx : s.socks.get x = some v) (h : Fails (f x) message.length n e) :
      Round pl s f message (x :: xs) (sendCalls pl (f x) v message (n + 1)) (some (sysErr pl e))

/-- After a whole round each of the others has got all of the message. -/
lemma Round.whole {f : Nat → Nat → Except Int Nat} {message : List UInt8} {xs : List Nat}
    {cs : List Call} (h : Round pl s f message xs cs none) : ∀ x ∈ xs, ∃ v n,
      s.socks.get x = some v ∧ sendCalls pl (f x) v message n <:+: cs ∧
        (pieces (f x) message n).flatten = message := by
  generalize hthrown : (none : Option Exn) = thrown at h
  induction h with
  | done =>
    intro x hx
    cases hx
  | @sent y v n ys cs thrown hy hn hrest ih =>
    intro x hx
    rcases List.mem_cons.mp hx with rfl | hx
    · refine ⟨v, n, hy, ⟨[], cs, rfl⟩, ?_⟩
      rw [flatten_pieces, hn.2, List.take_length]
    · obtain ⟨w, k, hw, hinfix, hpieces⟩ := ih hthrown x hx
      exact ⟨w, k, hw, hinfix.trans (List.suffix_append _ cs).isInfix, hpieces⟩
  | failed _ _ => cases hthrown

/-- How a round ends. -/
def ended (s : World) (cs : List Call) (thrown : Option Exn) : Outcome Fault Exn World Unit :=
  match thrown with
  | none => .ok () (s.recorded cs)
  | some e => .throw e (s.recorded cs)

variable (pl) in
lemma sendOn_round {message : List UInt8} {f : Nat → Nat → Except Int Nat} {m : Nat}
    (hm : message.length ≤ m) (hl : s.socks.get l = some w) {xs : List Nat}
    (hxs : ∀ x ∈ xs, ∃ v, s.socks.get x = some v ∧ (v.m_sockFD = w.m_sockFD → x = l))
    (hf : ∀ x ∈ xs, x ≠ l → Admissible pl (f x) message.length)
    (hfit : pl.windows = false ∨ message.length < 2 ^ 31) {u : World} (hu : u.socks = s.socks) :
    ∃ cs thrown, Round pl s f message (xs.filter (· ≠ l)) cs thrown ∧
      sendOn pl l message (fun x => (List.range m).map (f x)) xs u = u.ended cs thrown := by
  induction xs generalizing u with
  | nil => exact ⟨[], none, .done, rfl⟩
  | cons x xs ih =>
    obtain ⟨v, hv, heq⟩ := hxs x List.mem_cons_self
    have hrest := fun {u} => ih (fun y hy => hxs y (List.mem_cons_of_mem x hy))
      (fun y hy => hf y (List.mem_cons_of_mem x hy)) (u := u)
    rw [sendOn, Prog.bind_of_ok (notEquals_eq (hu ▸ hl) (hu ▸ hv))]
    by_cases hxl : x = l
    · obtain rfl : w = v := Option.some.inj (hl.symm.trans (hxl ▸ hv))
      simp only [hxl, ne_eq, not_true_eq_false, decide_false, Bool.false_eq_true, if_false,
        not_false_eq_true, List.filter_cons_of_neg]
      exact hrest hu
    · have hfd : w.m_sockFD ≠ v.m_sockFD := fun hne => hxl (heq hne.symm)
      have hdelivers : Delivers pl
          (sendLoop pl x (fun fd piece => .send fd piece (0 ||| pl.MSG_NOSIGNAL)) message 0)
          (fun piece => .send v.m_sockFD piece (0 ||| pl.MSG_NOSIGNAL)) message (f x) u :=
        sendLoop_delivers (hu ▸ hv) (hf x List.mem_cons_self hxl) hfit
      simp only [hfd, ne_eq, hxl, not_false_eq_true, decide_true, if_true,
        List.filter_cons_of_pos]
      rcases hdelivers.terminates with ⟨n, -, hn⟩ | ⟨n, -, e, hn⟩
      · obtain ⟨hsent, -⟩ := hdelivers.delivered n m hn hm
        obtain ⟨cs, thrown, hround, hcs⟩ :=
          hrest ((socks_recorded u (sendCalls pl (f x) v message n)).trans hu)
        refine ⟨_, thrown, .sent hv hn hround, ?_⟩
        rw [Prog.bind_of_ok (by exact hsent)]
        refine Eq.trans hcs ?_
        cases thrown with
        | none => rw [ended, ended, recorded_append]
        | some e => rw [ended, ended, recorded_append]
      · obtain ⟨hsent, -⟩ := hdelivers.interrupted n e m hn hm
        exact ⟨_, _, .failed hv hn, Prog.bind_of_throw (by exact hsent)⟩

/-! ### Temporary addresses -/

/-- The objects are as they were, and so are the descriptors. -/
structure Unmoved (s t : World) : Prop where
  linear : Linear t
  socks : t.socks = s.socks

/-- The next operation begins with a new record of its calls. -/
lemma Unmoved.next {u : World} (h : s.Unmoved t) (h' : (SocketOp.start t).Unmoved u) :
    s.Unmoved u := ⟨h'.linear, h'.socks.trans h.socks⟩

lemma Unmoved.of_recorded (h : Linear s) (cs : List Call) : Unmoved s (s.recorded cs) :=
  ⟨linear_recorded h cs, socks_recorded s cs⟩

lemma Unmoved.of_covered (h : Linear s) (c : Call) {a : Addresses}
    (ha : ∀ k, s.addr.Covered k → a.Covered k) : Unmoved s { s.called c with addr := a } := by
  have hkernel : s.kernel.Rebound 0 (s.called c).kernel := Or.inl ⟨rfl, rfl⟩
  have hc : Change linuxHost s { s.called c with addr := a } :=
    .kept (fun _ => Iff.rfl) ha hkernel
  exact ⟨h.change hc h.sole, rfl⟩

/-- The address of the peer can be told. -/
def Tells (pl : Platform) (answer : NameAnswer) : Prop :=
  ∃ st len o, answer = .ok (st, len) ∧ decode pl st len = some (.ok o)

/-- More is told than the storage has room for. -/
def Overlong (answer : NameAnswer) : Prop := ∃ st len, answer = .ok (st, len) ∧ 128 < len

/-- The state with a temporary address. -/
def withTemporary (s : World) (c : Call) (d : Nat) (o : AddressObject) : World :=
  { s.called c with addr :=
      ⟨s.addr.lib.enter, s.addr.heap.push o, s.addr.vars.push ⟨d, some s.addr.heap.next⟩⟩ }

lemma connectedAddress_spec (hw : pl.LibraryWorks) (h : Linear s) (hx : s.socks.get x = some v)
    (answer : NameAnswer) :
    Prog.wp (connectedAddress pl x answer)
      (fun tmp t => Tells pl answer ∧ tmp = s.addr.vars.next ∧
        ∃ c d o, t = s.withTemporary c d o)
      (fun _ t => Unmoved s t ∧ ¬Tells pl answer)
      (fun k => k ≠ .danglingPointer ∧ ¬Tells pl answer ∧ Overlong answer) s := by
  rw [connectedAddress, Prog.wp_bind, wp_request hx]
  refine ⟨?_, ?_⟩
  · rintro ⟨st, len⟩ rfl
    rw [wp_addresses]
    by_cases hdec : ∃ o, decode pl st len = some (.ok o)
    · obtain ⟨o, ho⟩ := hdec
      apply Prog.wp_of_eq_ok (ofStorage_of_decode_ok hw ho).2
      exact ⟨⟨st, len, o, rfl, ho⟩, rfl, _, _, o, rfl⟩
    · have hno : ¬Tells pl (.ok (st, len)) := by
        rintro ⟨_, _, o, heq, ho⟩
        cases heq
        exact hdec ⟨o, ho⟩
      apply Addresses.ofStorage_spec
      · intro f o hf ho _
        refine absurd ⟨o, ?_⟩ hdec
        rw [decode, hf]
        exact ho
      · intro _ l vars hl
        exact ⟨.of_covered h _ (Addresses.kept_of_sameUsers hl vars).covered, hno⟩
      · intro l hcleanup
        exact absurd hcleanup (hw.not_cleanupFails l)
      · intro f hnone
        refine ⟨(fun heq => by cases heq), hno, st, len, rfl, ?_⟩
        by_contra hlen
        exact ofStorage_ne_none f (by omega) hnone
  · rintro errno rfl
    refine ⟨.of_recorded h [_], ?_⟩
    rintro ⟨_, _, _, heq, -⟩
    cases heq

/-- A temporary goes, and the object that it has. -/
lemma destroyTemporary_spec (hw : pl.LibraryWorks) {Q : Unit → World → Prop}
    {E : Exn → World → Prop} {F : Fault → Prop} {y p : Nat} {d : Nat} {o : AddressObject}
    (hy : s.addr.vars.get y = some ⟨d, some p⟩) (hp : s.addr.heap.get p = some o)
    (hQ : Q () { s with addr :=
      ⟨s.addr.lib.leave, s.addr.heap.erase p, s.addr.vars.erase y⟩ }) :
    Prog.wp (addresses (Addresses.destroy pl y)) Q E F s := by
  rw [wp_addresses, Addresses.destroy, Prog.wp_bind, Addresses.wp_this hy, Prog.wp_bind,
    Addresses.wp_deleteBase_some pl hp]
  exact ⟨fun hcleanup => absurd hcleanup (hw.not_cleanupFails _), fun _ => hQ⟩

lemma connectedName_spec (hw : pl.LibraryWorks) (h : Linear s) (hx : s.socks.get x = some v)
    (answer : NameAnswer) :
    Prog.wp (connectedName pl x answer) (fun _ t => Unmoved s t ∧ Tells pl answer)
      (fun _ t => Unmoved s t ∧ ¬Tells pl answer)
      (fun k => k ≠ .danglingPointer ∧ ¬Tells pl answer ∧ Overlong answer) s := by
  rw [connectedName, Prog.wp_bind]
  apply Prog.wp_mono (connectedAddress_spec hw h hx answer)
  · rintro _ _ ⟨htells, rfl, c, d, o, rfl⟩
    have hvar := s.addr.vars.get_push_self ⟨d, some s.addr.heap.next⟩
    have hheap := s.addr.heap.get_push_self o
    have hmade := Addresses.kept_push s.addr o (s.addr.vars.push ⟨d, some s.addr.heap.next⟩)
    rw [Prog.wp_ensuring, wp_addresses, Addresses.name, Prog.wp_bind]
    refine (Addresses.wp_this (by exact hvar)).mpr ?_
    rw [Prog.wp_bind]
    refine (Addresses.wp_dereference (by exact hheap)).mpr ?_
    refine destroyTemporary_spec hw (by exact hvar) (by exact hheap) ?_
    refine ⟨.of_covered h c fun k hk => ?_, htells⟩
    exact (Addresses.kept_erase (by exact hheap) _).covered k (hmade.covered k hk)
  · intro _ _ ht
    exact ht
  · intro _ hf
    exact hf

/-- The copy that the cast makes stays until the end of the scope. -/
lemma connectedIPv4_spec (hw : pl.LibraryWorks) (h : Linear s) (hx : s.socks.get x = some v)
    (answer : NameAnswer) :
    Prog.wp (connectedIPv4 pl x answer)
      (fun p t => Unmoved s t ∧ ∃ o, t.addr.heap.get p = some o) (fun _ t => Unmoved s t)
      (· ≠ .danglingPointer) s := by
  rw [connectedIPv4, Prog.wp_bind]
  apply Prog.wp_mono (connectedAddress_spec hw h hx answer)
  · rintro _ _ ⟨-, rfl, c, d, o, rfl⟩
    have hvar := s.addr.vars.get_push_self ⟨d, some s.addr.heap.next⟩
    have hheap := s.addr.heap.get_push_self o
    have hmade := Addresses.kept_push s.addr o (s.addr.vars.push ⟨d, some s.addr.heap.next⟩)
    rw [Prog.wp_ensuring, wp_addresses, Addresses.castTo, Prog.wp_bind]
    refine (Addresses.wp_this (by exact hvar)).mpr ?_
    by_cases hd : d = pl.domainOf .IPv4
    · subst hd
      simp only [ne_eq, not_true_eq_false, if_false, Prog.wp_bind]
      refine (Addresses.wp_dereference (by exact hheap)).mpr ?_
      rw [Addresses.wp_newObject_ok]
      refine ⟨fun hstart => absurd hstart (hw.not_startFails _), fun _ => ?_⟩
      have hold := Store.get_push_of_some hheap o
      refine destroyTemporary_spec hw (by exact hvar) (by exact hold) ⟨?_, o, ?_⟩
      · refine .of_covered h c fun k hk => ?_
        have hcopied := Addresses.kept_push (s.withTemporary c (pl.domainOf .IPv4) o).addr o
          (s.withTemporary c (pl.domainOf .IPv4) o).addr.vars
        exact (Addresses.kept_erase (by exact hold) _).covered k
          (hcopied.covered k (hmade.covered k hk))
      · change (((s.addr.heap.push o).push o).erase s.addr.heap.next).get
          (s.addr.heap.push o).next = some o
        rw [Store.get_erase, if_neg (by simp), Store.get_push_self]
    · simp only [hd, ne_eq, not_false_eq_true, if_true, Prog.wp_bind, Prog.wp_raise]
      refine destroyTemporary_spec hw (by exact hvar) (by exact hheap) ?_
      refine .of_covered h c fun k hk => ?_
      exact (Addresses.kept_erase (by exact hheap) _).covered k (hmade.covered k hk)
  · intro _ _ ht
    exact ht.1
  · intro _ hf
    exact hf.1

/-! ### Erasing -/

/-- A destructor uses only what is there. -/
lemma destroy_sound (hx : s.socks.get x = some v) (hv : v.m_validFD = true) (name : NameAnswer) :
    Prog.wp (destroy pl x name) (fun _ _ => True) (fun _ _ => False) (· ≠ .danglingPointer) s := by
  have hterminate : Fault.terminate ≠ .danglingPointer := fun h => by cases h
  cases hw : pl.windows with
  | true => exact (wp_destroy_windows hw hx hv).mpr ⟨fun _ => hterminate, fun _ => trivial⟩
  | false =>
    refine (wp_destroy_posix hw hx hv).mpr ⟨fun st len _ => ?_, fun _ _ => hterminate⟩
    apply Addresses.ofStorage_spec
    · intro f o _ _ _
      have hvar := s.addr.vars.get_push_self ⟨ssFamily pl st, some s.addr.heap.next⟩
      have hheap := s.addr.heap.get_push_self o
      by_cases hd : v.m_domain = pl.domainOf .unix
      · rw [if_pos hd, Prog.wp_bind]
        obtain ⟨hget, -⟩ := erase_copy s.addr.heap o
        refine unlinkLocal_spec hw (by exact hvar) rfl (by exact hheap)
          s.addr.lib.leave_enter_enter (fun _ => hterminate) (fun _ _ h => by cases h) ?_
        intro u _ _
        exact depart_spec hw (by exact hvar) rfl (by exact hget) trivial
      · rw [if_neg hd]
        exact depart_spec hw (by exact hvar) rfl (by exact hheap) trivial
    · intro _ _ _ _
      exact hterminate
    · intro _ _
      exact hterminate
    · intro _ _ h
      cases h

/-- The condition does not depend on the state where the library works. -/
lemma destructible_of (hw : pl.LibraryWorks) {name : NameAnswer} (hd : Destructible pl s v name)
    (t : World) : Destructible pl t v name := by
  unfold Destructible at hd ⊢
  split
  · exact hw.not_cleanupFails _
  · next hposix =>
    rwa [if_neg hposix] at hd

/-- The element goes, the others keep their order and their sockets, and the last place is left
empty. -/
structure Erased (xs kept : List Nat) (s t : World) : Prop where
  linear : Linear t
  dropLast : kept = xs.dropLast
  elements : ∀ x ∈ kept, ∃ y ∈ xs, t.socks.get x = s.socks.get y
  others : ∀ z, z ∉ xs → t.socks.get z = s.socks.get z
  empty : ∀ z ∈ xs, z ∉ kept → t.socks.get z = none

lemma erase_spec {F : Fault → Prop} (h : Linear s) (hstart : SocketOp.start s = s)
    {xs : List Nat} (hnodup : xs.Nodup)
    (howners : ∀ x ∈ xs, ∃ v, s.socks.get x = some v ∧ v.m_validFD = true) (hl : l ∈ xs)
    (names : Nat → NameAnswer)
    (hdestroy : ∀ y ∈ xs, ∀ z ∈ xs, ∀ (t : World) v, s.socks.get y = some v →
      t.socks.get z = some v → v.m_validFD = true →
      Prog.wp (destroy pl z (names z)) (fun _ _ => True) (fun _ _ => False) F t) :
    Prog.wp (eraseRemove pl l xs names) (fun kept t => Erased xs kept s t)
      (fun _ _ => False) F s := by
  rw [eraseRemove, Prog.wp_bind]
  refine Prog.wp_mono (remove_spec h hnodup howners hl) (fun r t => ?_) (fun _ _ hno => hno)
    (fun _ hno => hno.elim)
  obtain ⟨kept, left⟩ := r
  rintro ⟨last, hkept, hleft, hr⟩
  obtain rfl : left = [last] := hleft
  have helements := hr.elements
  rw [← hkept, List.map_append, List.map_append] at helements
  obtain ⟨hfirst, hlast⟩ := List.append_inj' helements rfl
  have hkeptElements : ∀ x ∈ kept, ∃ y ∈ xs, t.socks.get x = s.socks.get y := by
    intro x hx
    have hmem := List.mem_map_of_mem (f := t.socks.get) hx
    rw [hfirst] at hmem
    obtain ⟨y, hy, hyx⟩ := List.mem_map.mp hmem
    exact ⟨y, hkept ▸ List.mem_of_mem_erase hy, hyx.symm⟩
  have herased : t.socks.get last = s.socks.get l := (List.cons.inj hlast).1
  have hlastMem : last ∈ xs := hkept ▸ List.mem_append_right kept (List.mem_singleton_self last)
  obtain ⟨v, hvl, hvalid⟩ := howners l hl
  have hv : t.socks.get last = some v := herased.trans hvl
  have htstart : SocketOp.start t = t := by
    rw [hr.same, ← hstart]
    rfl
  have hfree : ReleasesOwn t (.library (.destroy last (names last))) := trivial
  have heffect : Prog.wp (destroy pl last (names last))
      (fun _ => Effect pl t (.destroy last (names last)))
      (fun _ => Effect pl t (.destroy last (names last))) (fun _ => True) (SocketOp.start t) :=
    destroy_effect t last (names last)
  rw [htstart] at heffect
  rw [Prog.wp_bind, destroyAll, Prog.wp_bind]
  apply Prog.wp_mono (Prog.wp_and heffect
    (Prog.wp_and (destroy_closed pl hv hvalid (names last))
      (hdestroy l hl last hlastMem t v hvl hv hvalid)))
  · rintro _ u ⟨he, hc, -⟩
    have hget : ∀ z, z ≠ last → u.socks.get z = t.socks.get z := by
      intro z hz
      rw [hc.socks, Store.get_erase, if_neg hz]
    rw [← hkept] at hnodup
    obtain ⟨-, -, hdisjoint⟩ := List.nodup_append.mp hnodup
    refine ⟨hr.linear.effect hfree he, ?_, fun x hx => ?_, fun z hz => ?_, fun z hz hzk => ?_⟩
    · rw [← hkept, List.dropLast_concat]
    · rw [hget x (hdisjoint x hx last (List.mem_singleton_self last))]
      exact hkeptElements x hx
    · have hne : z ≠ last := by
        rintro rfl
        exact hz (hkept ▸ List.mem_append_right kept (List.mem_singleton_self z))
      rw [hget z hne, hr.others z hz]
    · rw [← hkept] at hz
      rcases List.mem_append.mp hz with hz | hz
      · exact absurd hz hzk
      · rw [List.mem_singleton.mp hz, hc.socks, Store.get_erase, if_pos rfl]
  · rintro _ _ ⟨-, hno, -⟩
    exact hno
  · rintro _ ⟨-, -, hf⟩
    exact hf

/-! ### A new client -/

/-- A new socket owns the descriptor that was accepted. -/
lemma accept_spec (h : Linear s) (hx : s.socks.get x = some v) (answer : Except Int Int) :
    Prog.wp (accept pl x answer)
      (fun peer t => Linear t ∧ peer = s.socks.next ∧
        ∃ w, w.m_validFD = true ∧ t.socks = s.socks.push w)
      (fun _ t => (SocketOp.start s).Unmoved t) (· ≠ .danglingPointer) (SocketOp.start s) := by
  rw [accept, Prog.wp_bind, wp_request (by exact hx)]
  refine ⟨fun peer hpeer => ?_, fun errno _ => .of_recorded (linear_start h) [_]⟩
  subst hpeer
  rw [Prog.wp_bind]
  refine (wp_this (by exact hx)).mpr ?_
  rw [Prog.wp_bind, wp_kernelStep]
  refine ⟨fun k hk => ?_, fun _ heq => by cases heq⟩
  obtain ⟨i, hi, hk⟩ := Option.bind_eq_some_iff.mp hk
  obtain ⟨d, hd, hk⟩ := Option.bind_eq_some_iff.mp hk
  obtain ⟨hfree, rfl⟩ := Kernel.allocate_eq_some hk
  obtain ⟨e, he, hopen, -⟩ := Kernel.exists_of_lookup hi
  have hlib : ¬s.addr.lib.StartFails pl := h.not_startFails he hopen
  have haccepted : Effect pl s (.accept x (.ok peer)) _ := .accepted hx hi hd hfree hlib
  have hfree : ReleasesOwn s (.library (.accept x (.ok peer))) := trivial
  rw [wp_wrap]
  exact ⟨fun hstart => absurd hstart hlib, fun _ => ⟨h.effect hfree haccepted, rfl, _, rfl, rfl⟩⟩

lemma destroyObject_spec (h : Linear s) {p : Nat} {o : AddressObject}
    (hp : s.addr.heap.get p = some o) :
    Prog.wp (addresses (Addresses.destroyObject pl p)) (fun _ => Unmoved s) (fun _ _ => False)
      (· ≠ .danglingPointer) s := by
  rw [wp_addresses, Addresses.wp_destroyObject pl hp]
  refine ⟨fun _ => (fun heq => by cases heq), fun _ => ⟨?_, rfl⟩⟩
  have hkernel : s.kernel.Rebound 0 s.kernel := Or.inl ⟨rfl, rfl⟩
  have hc : Change linuxHost s
      { s with addr := ⟨s.addr.lib.leave, s.addr.heap.erase p, s.addr.vars⟩ } :=
    .kept (fun _ => Iff.rfl) (Addresses.kept_erase hp s.addr.vars).covered hkernel
  exact h.change hc h.sole

end World

end SockLib
