import SockLib.Model.Connections
import SockLib.Proofs.LinearOwnership
import SockLib.Proofs.Readiness
import SockLib.Proofs.StreamIntegrity

/-!
# Streams end with their sockets

On every connection the bytes that are received are those that were sent at the other end, and
they come to an end when the descriptor there is closed: when the object that owns it is
destroyed, wherever it was moved to, or by a caller that it was handed over to.
-/

namespace SockLib

variable {pl : Platform}

/-! ### Descriptors only come and close -/

/-- Descriptors are never forgotten, and those that are closed are never opened again. -/
structure Kernel.Grows (k k' : Kernel) : Prop where
  next : k.descs.next ≤ k'.descs.next
  closed : ∀ i d, k.descs.get i = some d → d.isOpen = false →
    ∃ d', k'.descs.get i = some d' ∧ d'.isOpen = false

namespace Kernel.Grows

variable {k k' k'' : Kernel} {d e : Descriptor} {i : Nat}

lemma of_same (h : k'.descs = k.descs) : k.Grows k' := by
  refine ⟨(congrArg Store.next h).ge, fun i d hd hc => ⟨d, ?_, hc⟩⟩
  rw [h]
  exact hd

lemma trans (h : k.Grows k') (h' : k'.Grows k'') : k.Grows k'' := by
  refine ⟨h.next.trans h'.next, fun i d hd hc => ?_⟩
  obtain ⟨d', hd', hc'⟩ := h.closed i d hd hc
  exact h'.closed i d' hd' hc'

lemma push (h : k'.descs = k.descs.push e) : k.Grows k' := by
  refine ⟨?_, fun i d hd hc => ⟨d, ?_, hc⟩⟩
  · rw [h, Store.next_push]
    exact Nat.le_succ _
  · rw [h]
    exact Store.get_push_of_some hd e

lemma put (he : k.descs.get i = some e) (hopen : e.isOpen = false → d.isOpen = false)
    (h : k'.descs = k.descs.put i d) : k.Grows k' := by
  refine ⟨?_, fun j c hc hclosed => ?_⟩
  · rw [h, Store.next_put]
  · rw [h, Store.get_put he]
    split
    · next hj =>
      rw [hj, he] at hc
      cases hc
      exact ⟨d, rfl, hopen hclosed⟩
    · exact ⟨c, hc, hclosed⟩

lemma hand (k : Kernel) (n : Int) : k.Grows (k.hand n) := by
  cases hl : k.lookup n with
  | none => exact of_same (congrArg Kernel.descs (Kernel.hand_of_lookup_none hl))
  | some i =>
    obtain ⟨d, hd, -, -⟩ := Kernel.exists_of_lookup hl
    exact put (d := { d with handed := d.handed + 1 }) hd (fun h => h)
      (Kernel.descs_hand_of_get hl hd)

lemma close (k : Kernel) (n : Int) : k.Grows (k.close n) := by
  cases hl : k.lookup n with
  | none =>
    apply of_same
    rw [Kernel.close, hl]
  | some i =>
    obtain ⟨d, hd, -, -⟩ := Kernel.exists_of_lookup hl
    exact put (d := { d with isOpen := false, closes := d.closes + 1 }) hd (fun _ => rfl)
      (Kernel.descs_close_of_get hl hd)

end Kernel.Grows

lemma Effect.grows {s t : World} {op : SocketOp} (he : Effect pl s op t) :
    s.kernel.Grows t.kernel := by
  cases he with
  | created hfree hlib => exact .push rfl
  | accepted hx hi hd hfree hlib => exact .push rfl
  | lost hx hi hd hfree hlib hl => exact .push rfl
  | @paired t protocol fd0 fd1 junk junk' cs hfree0 hfree1 hne hcs =>
    have hfirst : s.kernel.Grows ⟨s.kernel.descs.push { number := fd0 }, [], []⟩ := .push rfl
    exact hfirst.trans (.push rfl)
  | @released x v hx =>
    have hstart : s.kernel.Grows (SocketOp.start s).kernel := .of_same rfl
    exact hstart.trans (.hand _ _)
  | @closed x v name t hx hv hc =>
    exact (Kernel.Grows.close s.kernel v.m_sockFD).trans (.of_same hc.descs_eq)
  | served hx h =>
    rcases h.kernel with ⟨hdescs, -⟩ | ⟨i, d, p, -, hd, -, -, hdescs, -⟩
    · exact .of_same hdescs
    · have hopen : d.isOpen = false →
          ({ d with localPath := some p, boundPath := some p } : Descriptor).isOpen = false :=
        fun hc => hc
      exact .put (by exact hd) hopen hdescs
  | _ => exact .of_same rfl

lemma ProgramOp.grows {s t : World} {op : ProgramOp} (hs : op.step pl s = some t) :
    s.kernel.Grows t.kernel := by
  cases op with
  | library op => exact (step_effect hs).grows
  | close n =>
    obtain ⟨k, hk, rfl⟩ := Option.map_eq_some_iff.mp hs
    obtain ⟨i, hl, hk⟩ := Option.bind_eq_some_iff.mp hk
    obtain ⟨d, hd, hk⟩ := Option.bind_eq_some_iff.mp hk
    split at hk
    · cases hk
      refine .put hd (fun _ => rfl) (d := { d with isOpen := false }) ?_
      simp [Store.update, hd]
    · cases hk

/-! ### Ends -/

/-- Ends come in pairs, and who waits for a listener waits once. -/
structure Linked (ends : Nat → StreamEnd) (next : Nat) : Prop where
  fresh : ∀ i, next ≤ i → ends i = .idle
  paired : ∀ i j, ends i = .connected j → ends j = .connected i ∧ i ≠ j
  queued : ∀ i b, ends i = .listening b → b.Nodup ∧ ∀ c ∈ b, ends c = .waiting
  once : ∀ i j b c l, ends i = .listening b → ends j = .listening c → l ∈ b → l ∈ c → i = j

namespace Linked

variable {ends : Nat → StreamEnd} {next m i j l : Nat} {b : List Nat}

lemma idle (next : Nat) : Linked (fun _ => .idle) next := by
  refine ⟨fun _ _ => rfl, ?_, ?_, ?_⟩
  · intro i j h
    cases h
  · intro i b h
    cases h
  · intro i j b c l h
    cases h

lemma mono (h : Linked ends next) (hle : next ≤ m) : Linked ends m :=
  ⟨fun i hi => h.fresh i (hle.trans hi), h.paired, h.queued, h.once⟩

lemma listen (h : Linked ends next) (hi : ends i = .idle) (hlt : i < next) :
    Linked (Function.update ends i (.listening [])) next := by
  obtain ⟨hfresh, hpaired, hqueued, honce⟩ := h
  constructor <;> grind [Function.update_apply]

/-- Those in a queue wait already. -/
lemma notMem_of_idle (h : Linked ends next) (hi : ends i = .idle) (hj : ends j = .listening b) :
    i ∉ b := by
  intro hmem
  have hwait := (h.queued j b hj).2 i hmem
  rw [hi] at hwait
  cases hwait

lemma connect (h : Linked ends next) (hi : ends i = .idle) (hj : ends j = .listening b)
    (hlt : i < next) :
    Linked (Function.update (Function.update ends i .waiting) j (.listening (b ++ [i]))) next := by
  have hnew := fun k c hk => h.notMem_of_idle (j := k) (b := c) hi hk
  obtain ⟨hfresh, hpaired, hqueued, honce⟩ := h
  have hends : ∀ k c, Function.update (Function.update ends i .waiting) j
      (.listening (b ++ [i])) k = .listening c →
        k = j ∧ c = b ++ [i] ∨ k ≠ j ∧ ends k = .listening c := by
    grind [Function.update_apply]
  have hwaits : ∀ c, ends c = .waiting ∨ c = i →
      Function.update (Function.update ends i .waiting) j (.listening (b ++ [i])) c = .waiting := by
    grind [Function.update_apply]
  constructor
  · clear hends hwaits hnew
    grind [Function.update_apply]
  · clear hends hwaits hnew
    grind [Function.update_apply]
  · intro k c hk
    rcases hends k c hk with ⟨-, rfl⟩ | ⟨-, hold⟩
    · obtain ⟨hnodup, hwaiting⟩ := hqueued j b hj
      constructor
      · rw [← List.concat_eq_append]
        exact hnodup.concat (hnew j b hj)
      · intro l hl
        rcases List.mem_append.mp hl with hmem | hmem
        · exact hwaits l (Or.inl (hwaiting l hmem))
        · exact hwaits l (Or.inr (List.mem_singleton.mp hmem))
    · obtain ⟨hnodup, hwaiting⟩ := hqueued k c hold
      exact ⟨hnodup, fun l hl => hwaits l (Or.inl (hwaiting l hl))⟩
  · intro k k' c c' l hk hk' hl hl'
    rcases hends k c hk with ⟨rfl, rfl⟩ | ⟨-, hold⟩
    · rcases hends k' c' hk' with ⟨rfl, -⟩ | ⟨-, hold'⟩
      · rfl
      · rcases List.mem_append.mp hl with hmem | hmem
        · exact honce k k' b c' l hj hold' hmem hl'
        · obtain rfl := List.mem_singleton.mp hmem
          exact absurd hl' (hnew k' c' hold')
    · rcases hends k' c' hk' with ⟨rfl, rfl⟩ | ⟨-, hold'⟩
      · rcases List.mem_append.mp hl' with hmem | hmem
        · exact honce k k' c b l hold hj hl hmem
        · obtain rfl := List.mem_singleton.mp hmem
          exact absurd hl (hnew k c hold)
      · exact honce k k' c c' l hold hold' hl hl'

lemma accept (h : Linked ends next) (hi : ends i = .listening (l :: b)) :
    Linked (Function.update (Function.update (Function.update ends i (.listening b)) l
      (.connected next)) next (.connected l)) (next + 1) := by
  obtain ⟨hfresh, hpaired, hqueued, honce⟩ := h
  obtain ⟨hnodup, -⟩ := hqueued i _ hi
  obtain ⟨hl, hb⟩ := List.nodup_cons.mp hnodup
  have hends : ∀ k c, Function.update (Function.update (Function.update ends i (.listening b)) l
      (.connected next)) next (.connected l) k = .listening c →
        k = i ∧ c = b ∨ k ≠ i ∧ ends k = .listening c := by
    grind [Function.update_apply]
  have hwaits : ∀ c, ends c = .waiting → c ≠ l →
      Function.update (Function.update (Function.update ends i (.listening b)) l
        (.connected next)) next (.connected l) c = .waiting := by
    grind [Function.update_apply]
  -- A queue has got no longer.
  have hsub : ∀ k c, Function.update (Function.update (Function.update ends i (.listening b)) l
      (.connected next)) next (.connected l) k = .listening c →
        ∃ d, ends k = .listening d ∧ ∀ m ∈ c, m ∈ d ∧ m ≠ l := by
    intro k c hk
    rcases hends k c hk with ⟨rfl, rfl⟩ | ⟨hne, hold⟩
    · refine ⟨_, hi, fun m hm => ⟨List.mem_cons_of_mem l hm, ?_⟩⟩
      rintro rfl
      exact hl hm
    · refine ⟨c, hold, fun m hm => ⟨hm, ?_⟩⟩
      rintro rfl
      exact hne (honce k i c _ m hold hi hm List.mem_cons_self)
  constructor
  · clear hends hwaits hsub
    grind [Function.update_apply]
  · clear hends hwaits hsub
    grind [Function.update_apply]
  · intro k c hk
    obtain ⟨d, hd, hin⟩ := hsub k c hk
    refine ⟨?_, fun m hm => hwaits m ((hqueued k d hd).2 m (hin m hm).1) (hin m hm).2⟩
    rcases hends k c hk with ⟨-, rfl⟩ | ⟨-, hold⟩
    · exact hb
    · exact (hqueued k c hold).1
  · intro k k' c c' m hk hk' hm hm'
    obtain ⟨d, hd, hin⟩ := hsub k c hk
    obtain ⟨d', hd', hin'⟩ := hsub k' c' hk'
    exact honce k k' d d' m hd hd' (hin m hm).1 (hin' m hm').1

lemma pair (h : Linked ends next) :
    Linked (Function.update (Function.update ends next (.connected (next + 1))) (next + 1)
      (.connected next)) (next + 2) := by
  obtain ⟨hfresh, hpaired, hqueued, honce⟩ := h
  constructor <;> grind [Function.update_apply]

end Linked

/-! ### Streams -/

namespace Transfer

variable {t t' : Transfer}

lemma closed_of_proceed {c : SendCall} (h : t.proceed pl c = some t') : t'.closed = t.closed := by
  unfold proceed at h
  split at h
  · cases h
    rfl
  · cases h
    rfl
  · cases h

lemma closed_of_deliver {o : Outcome Fault Exn World (List UInt8)} (h : t.deliver o = some t') :
    t'.closed = t.closed := by
  cases o with
  | ok buffer s =>
    cases h
    rfl
  | throw e s =>
    cases h
    rfl
  | fault k => cases h

/-- Nothing but hanging up closes a stream. -/
lemma closed_of_step {op : TransferOp} (h : t.step pl op = some t') (hop : op ≠ .close) :
    t'.closed = t.closed := by
  cases op with
  | call program x data =>
    rw [step, call] at h
    split at h
    · cases h
    · exact closed_of_proceed h
  | transmit answer =>
    obtain ⟨c, -, h⟩ := Option.bind_eq_some_iff.mp h
    obtain ⟨offered, -, h⟩ := Option.bind_eq_some_iff.mp h
    cases answer with
    | error e => exact closed_of_proceed h
    | ok r =>
      simp only at h
      split at h
      · have hclosed := closed_of_proceed h
        exact hclosed
      · cases h
  | receive program y bufSize answer =>
    rw [step] at h
    split at h
    · cases answer with
      | error e => exact closed_of_deliver h
      | ok r =>
        rw [receive] at h
        split at h
        · have hclosed := closed_of_deliver h
          exact hclosed
        · cases h
    · cases h
  | close => exact absurd rfl hop

end Transfer

/-! ### Operations that open descriptors -/

namespace World

variable {s t : World} {x : Nat}

lemma step_member {v : Socket} (hx : s.socks.get x = some v) (m : Member) :
    SocketOp.step pl s (.member x m) = (m.exec pl x (SocketOp.start s)).resume := by
  rw [SocketOp.step, SocketOp.exec, Prog.bind_of_ok (this_eq (s := SocketOp.start s) hx)]

lemma resume_discard {α : Type} (m : SockProg α) (s : World) :
    (discard m s).resume = (m s).resume := by
  change (Prog.andThen m (fun _ => pure ()) s).resume = _
  unfold Prog.andThen
  cases m s <;> rfl

/-- A descriptor is there for the kernel as soon as it has answered. -/
lemma accept_descs (s : World) (x : Nat) (peer : Int) :
    Prog.wp (accept pl x (.ok peer)) (fun _ t => ∃ d, t.kernel.descs = s.kernel.descs.push d)
      (fun _ t => ∃ d, t.kernel.descs = s.kernel.descs.push d) (fun _ => True)
      (SocketOp.start s) := by
  cases hx : s.socks.get x with
  | none =>
    have hx' : (SocketOp.start s).socks.get x = none := hx
    simp [accept, request, this, hx']
  | some v =>
    have hx' : (SocketOp.start s).socks.get x = some v := hx
    rw [accept, Prog.wp_bind, wp_request hx']
    refine ⟨fun peer hpeer => ?_, fun errno herr => by cases herr⟩
    rw [Prog.wp_bind]
    refine (wp_this (by exact hx)).mpr ?_
    rw [Prog.wp_bind, wp_kernelStep]
    refine ⟨fun k hk => ?_, fun _ => trivial⟩
    obtain ⟨i, hi, hk⟩ := Option.bind_eq_some_iff.mp hk
    obtain ⟨d, hd, hk⟩ := Option.bind_eq_some_iff.mp hk
    obtain ⟨hfree, rfl⟩ := Kernel.allocate_eq_some hk
    rw [wp_wrap]
    exact ⟨fun _ => ⟨_, rfl⟩, fun _ => ⟨_, rfl⟩⟩

variable (pl) in
/-- The Windows build makes no pair. The other one returns the pair the kernel has made. -/
lemma createUnixPair_descs (s : World) (t protocol fd0 fd1 : Int) (junk junk' : Socket) :
    Prog.wp (createUnixPair pl t protocol junk junk' (.ok (fd0, fd1)))
      (fun _ t => pl.windows = false ∧ ∃ d e, t.kernel.descs = (s.kernel.descs.push d).push e)
      (fun _ t => pl.windows = true ∧ t.kernel.descs = s.kernel.descs)
      (fun _ => True) (SocketOp.start s) := by
  by_cases hw : pl.windows = true
  · simp [createUnixPair, hw, SocketOp.start]
  · have hposix := Bool.eq_false_iff.mpr hw
    simp only [createUnixPair, hposix, Bool.false_eq_true, if_false]
    rw [Prog.wp_bind, wp_sysCall, Prog.wp_bind, wp_check]
    refine ⟨fun fds hfds => ?_, fun errno herr => by cases herr⟩
    cases hfds
    rw [Prog.wp_bind, wp_kernelStep]
    refine ⟨fun k hk => ?_, fun _ => trivial⟩
    obtain ⟨-, rfl⟩ := Kernel.allocate_eq_some hk
    rw [Prog.wp_bind, wp_kernelStep]
    refine ⟨fun k hk => ?_, fun _ => trivial⟩
    obtain ⟨-, rfl⟩ := Kernel.allocate_eq_some hk
    rw [Prog.wp_bind, wp_wrap]
    refine ⟨fun hs => absurd hs (Library.not_startFails_of_posix hposix _), fun _ => ?_⟩
    rw [Prog.wp_bind, wp_wrap]
    refine ⟨fun hs => absurd hs (Library.not_startFails_of_posix hposix _), fun _ => ?_⟩
    simp only [Store.next_push]
    apply returnPair_spec
    exact ⟨trivial, _, _, rfl⟩

end World

/-! ### The invariant -/

namespace Connections

variable {n m : Connections} {x i : Nat} {s : World}

/-- Streams are whole, ends are paired, and no stream is closed before its descriptor. -/
structure Sound (pl : Platform) (n : Connections) : Prop where
  linear : Linear n.program
  linked : Linked n.ends n.program.kernel.descs.next
  placed : ∀ i, ∃ pieces rest, (n.stream i).Placed pl pieces rest
  closed : ∀ i, (n.stream i).closed = true → n.gone i = true

/-- A descriptor is released by the object that owns it. -/
def ReleasesOwn (n : Connections) : StreamOp → Prop
  | .program op => SockLib.ReleasesOwn n.program op
  | _ => True

lemma gone_eq_true : n.gone i = true ↔
    ∃ d, n.program.kernel.descs.get i = some d ∧ d.isOpen = false := by
  simp [gone, Option.any_eq_true]

lemma sound_initial (autoInitialize : Bool) (files : List (List UInt8)) :
    (initial autoInitialize files).Sound pl where
  linear := Linear.initial autoInitialize files
  linked := Linked.idle _
  placed _ := ⟨[], [], Transfer.placed_empty⟩
  closed i h := by cases h

namespace Sound

/-- A step of the program, after which the ends are in order. -/
lemma program (h : n.Sound pl) {op : ProgramOp} (hs : op.step pl n.program = some s)
    (hg : SockLib.ReleasesOwn n.program op) {ends : Nat → StreamEnd}
    (hl : Linked ends s.kernel.descs.next) : Sound pl { n with program := s, ends := ends } where
  linear := h.linear.step hg hs
  linked := hl
  placed := h.placed
  closed i hi := by
    obtain ⟨d, hd, hc⟩ := gone_eq_true.mp (h.closed i hi)
    exact gone_eq_true.mpr ((ProgramOp.grows hs).closed i d hd hc)

/-- A step of one of the streams. -/
lemma stream (h : n.Sound pl) {op : TransferOp} (hop : op ≠ .close) {t : Transfer}
    (ht : (n.stream i).step pl op = some t) :
    Sound pl { n with stream := Function.update n.stream i t } where
  linear := h.linear
  linked := h.linked
  placed j := by
    by_cases hj : j = i
    · rw [hj]
      change ∃ pieces rest, (Function.update n.stream i t i).Placed pl pieces rest
      rw [Function.update_self]
      exact Transfer.step_placed (h.placed i) ht
    · change ∃ pieces rest, (Function.update n.stream i t j).Placed pl pieces rest
      rw [Function.update_of_ne hj]
      exact h.placed j
  closed j hj := by
    apply h.closed j
    by_cases hji : j = i
    · rw [hji] at hj ⊢
      change (Function.update n.stream i t i).closed = true at hj
      rw [Function.update_self, Transfer.closed_of_step ht hop] at hj
      exact hj
    · change (Function.update n.stream i t j).closed = true at hj
      rwa [Function.update_of_ne hji] at hj

lemma hangUp (h : n.Sound pl) : n.hangUp.Sound pl where
  linear := h.linear
  linked := h.linked
  placed i := by
    change ∃ pieces rest, Transfer.Placed pl (if n.gone i = true then _ else _) pieces rest
    split
    · have hclose : (n.stream i).step pl .close = some { n.stream i with closed := true } := rfl
      exact Transfer.step_placed (h.placed i) hclose
    · exact h.placed i
  closed i hi := by
    by_contra hno
    have hopen : ¬n.gone i = true := hno
    change (if n.gone i = true then _ else n.stream i).closed = true at hi
    rw [if_neg hopen] at hi
    exact hopen (h.closed i hi)

/-- The kernel has every descriptor that an object names. -/
lemma lt_next (hi : n.program.descriptor x = some i) : i < n.program.kernel.descs.next := by
  obtain ⟨v, -, hl⟩ := Option.bind_eq_some_iff.mp hi
  obtain ⟨d, hd, -, -⟩ := Kernel.exists_of_lookup hl
  exact Store.lt_next hd

/-- A member is called on an object that has a descriptor. -/
lemma step_of_member (hi : n.program.descriptor x = some i) (mem : Member)
    (hs : (mem.exec pl x (SocketOp.start n.program)).resume = some s) :
    (ProgramOp.library (.member x mem)).step pl n.program = some s := by
  obtain ⟨v, hx, -⟩ := Option.bind_eq_some_iff.mp hi
  exact (World.step_member hx mem).trans hs

lemma listen (h : n.Sound pl) {backlog : Int} (hm : n.listen pl x backlog = some m) :
    m.Sound pl := by
  obtain ⟨i, hi, hm⟩ := Option.bind_eq_some_iff.mp hm
  obtain ⟨s, hs, hm⟩ := Option.bind_eq_some_iff.mp hm
  have hstep := step_of_member hi (.listen backlog (.ok ())) hs
  have hle := (ProgramOp.grows hstep).next
  split at hm
  · next hidle =>
    cases hm
    exact h.program hstep trivial ((h.linked.listen hidle (lt_next hi)).mono hle)
  · cases hm
    exact h.program hstep trivial (h.linked.mono hle)
  · cases hm

lemma connect (h : n.Sound pl) {fr : Frame} {address to_ : Nat}
    (hm : n.connect pl x fr address to_ = some m) : m.Sound pl := by
  obtain ⟨i, hi, hm⟩ := Option.bind_eq_some_iff.mp hm
  obtain ⟨s, hs, hm⟩ := Option.bind_eq_some_iff.mp hm
  have hstep := step_of_member hi (.connectAddress fr address (.ok ())) hs
  have hle := (ProgramOp.grows hstep).next
  split at hm
  · next hidle hlistens =>
    split at hm
    · cases hm
      exact h.program hstep trivial ((h.linked.connect hidle hlistens (lt_next hi)).mono hle)
    · cases hm
  · cases hm

lemma accept (h : n.Sound pl) {peerFD : Int} (hm : n.accept pl x peerFD = some m) :
    m.Sound pl := by
  obtain ⟨i, -, hm⟩ := Option.bind_eq_some_iff.mp hm
  obtain ⟨s, hs, hm⟩ := Option.bind_eq_some_iff.mp hm
  have hstep : (ProgramOp.library (.accept x (.ok peerFD))).step pl n.program = some s :=
    (World.resume_discard _ _).trans hs
  obtain ⟨d, hdescs⟩ : ∃ d, s.kernel.descs = n.program.kernel.descs.push d :=
    Prog.resume_of_wp (P := fun s => ∃ d, s.kernel.descs = n.program.kernel.descs.push d)
      (F := fun _ => True) (World.accept_descs n.program x peerFD) hs
  split at hm
  · next hlistens =>
    cases hm
    refine h.program hstep trivial ?_
    rw [hdescs, Store.next_push]
    exact h.linked.accept hlistens
  · cases hm

lemma pair (h : n.Sound pl) {t protocol fd0 fd1 : Int} {junk junk' : Socket}
    (hm : n.pair pl t protocol junk junk' fd0 fd1 = some m) : m.Sound pl := by
  have hdescs := World.createUnixPair_descs pl n.program t protocol fd0 fd1 junk junk'
  have hstep : (ProgramOp.library (.createUnixPair t protocol junk junk' (.ok (fd0, fd1)))).step
      pl n.program = _ := World.resume_discard _ _
  unfold Connections.pair at hm
  unfold Prog.wp at hdescs
  split at hm
  · next s hok =>
    rw [hok] at hstep hdescs
    obtain ⟨-, d, e, hdescs⟩ := hdescs
    cases hm
    refine h.program hstep trivial ?_
    rw [hdescs, Store.next_push, Store.next_push]
    exact h.linked.pair
  · next s hthrow =>
    rw [hthrow] at hstep
    cases hm
    exact h.program hstep trivial (h.linked.mono (ProgramOp.grows hstep).next)
  · cases hm

lemma act (h : n.Sound pl) {op : StreamOp} (hg : n.ReleasesOwn op) (hm : n.act pl op = some m) :
    m.Sound pl := by
  cases op with
  | program op =>
    rw [Connections.act] at hm
    split at hm
    · cases hm
    · obtain ⟨s, hs, rfl⟩ := Option.map_eq_some_iff.mp hm
      exact h.program hs hg (h.linked.mono (ProgramOp.grows hs).next)
  | listen x backlog => exact h.listen hm
  | connect x fr address to_ => exact h.connect hm
  | accept x peerFD => exact h.accept hm
  | pair t protocol junk junk' fd0 fd1 => exact h.pair hm
  | send x data =>
    obtain ⟨i, -, hm⟩ := Option.bind_eq_some_iff.mp hm
    obtain ⟨t, ht, hm⟩ := Option.bind_eq_some_iff.mp hm
    cases hm
    exact h.stream (fun hop => by cases hop) ht
  | transmit i answer =>
    obtain ⟨c, -, hm⟩ := Option.bind_eq_some_iff.mp hm
    obtain ⟨v, -, hm⟩ := Option.bind_eq_some_iff.mp hm
    obtain ⟨t, ht, hm⟩ := Option.bind_eq_some_iff.mp hm
    cases answer with
    | error e =>
      cases hm
      exact h.stream (fun hop => by cases hop) ht
    | ok r =>
      simp only at hm
      split at hm
      · cases hm
        exact h.stream (fun hop => by cases hop) ht
      · cases hm
  | receive y bufSize answer =>
    obtain ⟨j, -, hm⟩ := Option.bind_eq_some_iff.mp hm
    split at hm
    · obtain ⟨t, ht, hm⟩ := Option.bind_eq_some_iff.mp hm
      cases hm
      exact h.stream (fun hop => by cases hop) ht
    · cases hm
      exact h
    · cases hm

end Sound

/-- A stream is closed as soon as its descriptor is. -/
lemma closed_hangUp (n : Connections) {i : Nat} (hi : n.hangUp.gone i = true) :
    (n.hangUp.stream i).closed = true := by
  have hgone : n.gone i = true := hi
  change (if n.gone i = true then _ else n.stream i).closed = true
  rw [if_pos hgone]

variable (pl) in
/-- A stream is closed exactly when its descriptor is. -/
def HungUp (n : Connections) : Prop :=
  n.Sound pl ∧ ∀ i, n.gone i = true → (n.stream i).closed = true

lemma hungUp_of_step (h : n.HungUp pl) {op : StreamOp} (hg : n.ReleasesOwn op)
    (hm : n.step pl op = some m) : m.HungUp pl := by
  obtain ⟨m', hm', rfl⟩ := Option.map_eq_some_iff.mp hm
  exact ⟨(h.1.act hg hm').hangUp, fun i => closed_hangUp m'⟩

lemma hungUp_initial (autoInitialize : Bool) (files : List (List UInt8)) :
    (initial autoInitialize files).HungUp pl :=
  ⟨sound_initial autoInitialize files, fun i h => by cases h⟩

namespace HungUp

variable {d : Descriptor}

lemma closed_iff (h : n.HungUp pl) (hd : n.program.kernel.descs.get i = some d) :
    (n.stream i).closed = true ↔ d.isOpen = false := by
  constructor
  · intro hc
    obtain ⟨e, he, hopen⟩ := gone_eq_true.mp (h.1.closed i hc)
    rw [hd] at he
    cases he
    exact hopen
  · intro hopen
    exact h.2 i (gone_eq_true.mpr ⟨d, hd, hopen⟩)

/-- What no caller has asked for is closed by its owner, and by nobody else. -/
lemma unowned_iff (h : n.HungUp pl) (hd : n.program.kernel.descs.get i = some d)
    (hh : d.handed = 0) : (n.stream i).closed = true ↔ ∀ x, ¬OwnedBy n.program x d := by
  rw [h.closed_iff hd]
  cases h.1.linear.fate i d hd with
  | owned hopen hn _ _ =>
    obtain ⟨x, hx⟩ := hn
    refine iff_of_false (fun hc => ?_) fun hno => hno x ⟨hopen, hx⟩
    rw [hopen] at hc
    cases hc
  | handedOver _ hh' _ =>
    rw [hh] at hh'
    cases hh'
  | closed hopen _ _ =>
    refine iff_of_true hopen fun x hx => ?_
    have hc := hx.1
    rw [hopen] at hc
    cases hc

end HungUp

variable (pl) in
/-- Nothing is lost on any stream, and it ends with the object that owns its descriptor, or, if
this was handed over, with the descriptor. -/
structure Whole (n : Connections) : Prop where
  intact : ∀ i, (n.stream i).Intact pl
  paired : ∀ i j, n.ends i = .connected j → n.ends j = .connected i ∧ i ≠ j
  ends : ∀ i d, n.program.kernel.descs.get i = some d →
    ((n.stream i).closed = true ↔ d.isOpen = false)
  owned : ∀ i d, n.program.kernel.descs.get i = some d → d.handed = 0 →
    ((n.stream i).closed = true ↔ ∀ x, ¬OwnedBy n.program x d)

lemma HungUp.whole (h : n.HungUp pl) : n.Whole pl where
  intact i := by
    obtain ⟨pieces, rest, hp⟩ := h.1.placed i
    exact hp.intact
  paired := h.1.linked.paired
  ends _ _ hd := h.closed_iff hd
  owned _ _ hd hh := h.unowned_iff hd hh

variable (pl) in
/-- What `poll` says of a connected descriptor: something can be received, or nothing more will
come. -/
def Polled (n : Connections) (revents : Int → Nat → Nat) : Prop :=
  ∀ fd j i, n.program.kernel.lookup fd = some j → n.ends j = .connected i →
    (revents fd pl.POLLIN &&& pl.POLLIN = pl.POLLIN ↔
      (n.stream i).queue ≠ [] ∨ (n.stream i).closed = true)

variable (pl) in
/-- `readReady` and `bytesReady` together tell whether the other end has no owner any more and
has nothing left to receive, and `receive` may return an empty vector only then. -/
def SeesTheEnd (n : Connections) : Prop :=
  ∀ y j i d, n.program.descriptor y = some j → n.ends j = .connected i →
    n.program.kernel.descs.get i = some d → d.handed = 0 →
    let ended := (∀ x, ¬OwnedBy n.program x d) ∧ (n.stream i).queue = []
    (∀ timeout revents vectors polls, n.Polled pl revents →
      ((Polling.readReady pl y timeout (.ok revents) ⟨n.program, vectors, polls⟩).answer =
          .ok true () ∧
        (World.bytesReady pl y (.ok (n.stream i).queue.length) n.program).answer = .ok 0 () ↔
          ended)) ∧
    ∀ bufSize, 0 < bufSize → ((∃ m, n.receive pl y bufSize (.ok 0) = some m) ↔ ended)

lemma HungUp.seesTheEnd (h : n.HungUp pl) : n.SeesTheEnd pl := by
  intro y j i d hy hj hd hh ended
  obtain ⟨v, hv, hl⟩ := Option.bind_eq_some_iff.mp hy
  have hended : ended ↔ (n.stream i).closed = true ∧ (n.stream i).queue = [] := by
    rw [h.unowned_iff hd hh]
  constructor
  · intro timeout revents vectors polls hpolled
    have hready : Polling.ready pl y pl.POLLIN timeout (.ok revents)
        ⟨n.program, vectors, polls⟩ = _ := Polling.ready_ok pl (by exact hv) timeout revents
    have hbytes : World.bytesReady pl y (.ok (n.stream i).queue.length) n.program =
        .ok (n.stream i).queue.length (n.program.called (.ioctl v.m_sockFD)) :=
      World.request_eq hv _ _
    rw [Polling.readReady, hready, hbytes, hended, Polling.reported, Polling.fdOf_eq hv]
    simp only [Outcome.answer, Outcome.ok.injEq, and_true, decide_eq_true_eq,
      List.length_eq_zero_iff]
    rw [hpolled v.m_sockFD j i hl hj]
    tauto
  · intro bufSize hpos
    rw [hended, Connections.receive, hy]
    simp only [Option.bind_eq_bind, Option.bind_some, hj]
    rw [Transfer.step, if_pos hpos, Transfer.receive]
    constructor
    · rintro ⟨m, hm⟩
      obtain ⟨t, ht, -⟩ := Option.bind_eq_some_iff.mp hm
      split at ht
      · next hn =>
        obtain ⟨hpos, -⟩ | ⟨-, hq, hc⟩ := hn
        · exact absurd hpos (Nat.lt_irrefl 0)
        · exact ⟨hc, hq⟩
      · cases ht
    · rintro ⟨hc, hq⟩
      have hle : ((n.stream i).queue.take 0).length ≤ bufSize := Nat.zero_le _
      rw [if_pos (Or.inr ⟨rfl, hq, hc⟩),
        Transfer.receive_ok (s := SocketOp.start n.program) (by exact hv) hle]
      exact ⟨_, rfl⟩

end Connections

lemma connections_hungUp (autoInitialize : Bool) (files : List (List UInt8))
    (ops : List StreamOp)
    (hg : Guarded (Connections.step pl) Connections.ReleasesOwn
      (Connections.initial autoInitialize files) ops) :
    Along (Connections.step pl) (Connections.HungUp pl)
      (Connections.initial autoInitialize files) ops :=
  along_of_guarded (fun _ _ _ h hop hm => Connections.hungUp_of_step h hop hm)
    (Connections.hungUp_initial autoInitialize files) hg

/-- One socket of a pair sends, is moved and is destroyed, and the other one receives. -/
def farewell : List StreamOp :=
  let junk : Socket := ⟨true, 9, 2, 1, 0⟩
  let unnamed : SockaddrStorage := ⟨[1, 0] ++ List.replicate 126 0, rfl⟩
  [.pair 1 0 junk junk 3 4, .send 2 [1, 2, 3], .transmit 0 (.ok 2), .receive 3 9 (.ok 1),
    .transmit 0 (.ok 1), .program (.library (.move 2 junk)),
    .program (.library (.destroy 4 (.ok (unnamed, 2)))), .receive 3 9 (.ok 2),
    .receive 3 9 (.ok 0)]

lemma farewell_releasesOwn (n : Connections) : ∀ op ∈ farewell, n.ReleasesOwn op := by
  simp only [farewell, List.forall_mem_cons]
  exact ⟨trivial, trivial, trivial, trivial, trivial, trivial, trivial, trivial, trivial,
    List.forall_mem_nil _⟩

example : (run (Connections.step linuxHost) (Connections.initial true []) farewell).map
    (fun n => ((n.stream 0).received, (n.stream 0).closed, (n.stream 1).closed)) =
    some ([[1], [2, 3], []], true, false) := by
  decide +kernel

end SockLib
