import SockLib.Model.NumericHost
import SockLib.Model.Timeouts
import SockLib.Proofs.SocketRules

/-!
# Time-outs as they are set and read

A time-out is divided into seconds and microseconds, or rounded down to milliseconds and narrowed
to 32 bits. Reading it back multiplies in 64 bits, and on Windows in 32 bits.
-/

namespace SockLib

variable (pl : Platform)

/-! ### Conversions -/

section Conversions

variable {us : Int64}

lemma exists_signed64 {v : Int} (hmin : -2 ^ 63 ≤ v) (hmax : v < 2 ^ 63) :
    ∃ i, signed64 v = some i ∧ i.toInt = v :=
  ⟨Int64.ofInt v, if_pos ⟨hmin, hmax⟩, Int64.toInt_ofInt_of_le hmin hmax⟩

lemma toInt_div (h0 : 0 ≤ us.toInt) {d : Int64} (hd : d ≠ -1) :
    (us / d).toInt = us.toInt / d.toInt := by
  rw [Int64.toInt_div_of_ne_right _ _ hd, Int.tdiv_eq_ediv_of_nonneg h0]

lemma toInt_mod (h0 : 0 ≤ us.toInt) (d : Int64) : (us % d).toInt = us.toInt % d.toInt := by
  rw [Int64.toInt_mod, Int.tmod_eq_emod_of_nonneg h0]

lemma toNat_toUInt64 (h0 : 0 ≤ us.toInt) : (us.toUInt64.toNat : Int) = us.toInt := by
  have hle : 0 ≤ us := Int64.le_iff_toInt_le.mpr h0
  rw [Int64.toNat_toUInt64_of_le hle, Int64.cast_toNatClampNeg us hle]

lemma toInt_toInt64 {v : UInt64} (hv : v.toNat < 2 ^ 63) : v.toInt64.toInt = v.toNat := by
  rw [Int64.toInt, UInt64.toBitVec_toInt64]
  exact BitVec.toInt_eq_toNat_of_lt (by rw [UInt64.toNat_toBitVec]; omega)

variable {pl}

/-- A `timeval` has the whole seconds and the rest. -/
lemma microsecondsToTimeoutT_posix (hw : pl.windows = false) (h0 : 0 ≤ us.toInt) :
    ∃ tv_sec tv_usec, microsecondsToTimeoutT pl us = .timeval tv_sec tv_usec ∧
      tv_sec.toInt = us.toInt / 1000000 ∧ tv_usec.toInt = us.toInt % 1000000 := by
  refine ⟨us / 1000000, us % 1000000, by simp [microsecondsToTimeoutT, hw], ?_, ?_⟩
  · exact toInt_div h0 (by decide)
  · exact toInt_mod h0 1000000

/-- A `DWORD` has the low bits of the whole milliseconds. -/
lemma microsecondsToTimeoutT_windows (hw : pl.windows = true) (h0 : 0 ≤ us.toInt) :
    ∃ ms, microsecondsToTimeoutT pl us = .dword ms ∧
      (ms.toNat : Int) = us.toInt / 1000 % 2 ^ 32 := by
  refine ⟨(us / 1000).toUInt64.toUInt32, by simp [microsecondsToTimeoutT, hw], ?_⟩
  have hdiv : (us / 1000).toInt = us.toInt / 1000 := toInt_div h0 (by decide)
  have hnat : ((us / 1000).toUInt64.toNat : Int) = (us / 1000).toInt :=
    toNat_toUInt64 (by omega)
  rw [UInt64.toNat_toUInt32, Int.natCast_mod, hnat, hdiv]
  rfl

variable (pl) in
/-- What the getter makes of the option value that the setter has made. -/
lemma exists_readBack (h0 : 0 ≤ us.toInt) :
    ∃ r, timeoutTToMicroseconds (microsecondsToTimeoutT pl us) = some r ∧
      r.toInt = if pl.windows = true then us.toInt / 1000 % 2 ^ 32 * 1000 % 2 ^ 32
        else us.toInt := by
  have hlt := us.toInt_lt
  cases hw : pl.windows with
  | false =>
    obtain ⟨tv_sec, tv_usec, htv, hsec, husec⟩ := microsecondsToTimeoutT_posix hw h0
    obtain ⟨i, hi, hival⟩ :=
      exists_signed64 (v := tv_sec.toInt * 1000000) (by omega) (by omega)
    obtain ⟨r, hr, hrval⟩ := exists_signed64 (v := tv_usec.toInt + i.toInt) (by omega) (by omega)
    refine ⟨r, ?_, ?_⟩
    · rw [htv, timeoutTToMicroseconds, hi]
      exact hr
    · rw [if_neg Bool.false_ne_true]
      omega
  | true =>
    obtain ⟨ms, htv, hms⟩ := microsecondsToTimeoutT_windows hw h0
    refine ⟨_, by rw [htv, timeoutTToMicroseconds], ?_⟩
    have hprod : ((ms * 1000).toNat : Int) = us.toInt / 1000 % 2 ^ 32 * 1000 % 2 ^ 32 := by
      rw [UInt32.toNat_mul, Int.natCast_mod, Int.natCast_mul, hms]
      rfl
    have hsmall := (ms * 1000).toNat_lt
    rw [if_pos rfl, toInt_toInt64 (by rw [UInt32.toNat_toUInt64]; omega), UInt32.toNat_toUInt64,
      hprod]

end Conversions

/-! ### Values in memory -/

namespace TimeoutT

/-- The value is of the type that the build has. -/
def OfBuild : TimeoutT → Prop
  | .timeval _ _ => pl.windows = false
  | .dword _ => pl.windows = true

variable {pl} {tv tv' : TimeoutT}

variable (pl) in
lemma ofBuild_microsecondsToTimeoutT (us : Int64) : (microsecondsToTimeoutT pl us).OfBuild pl := by
  unfold microsecondsToTimeoutT
  cases hw : pl.windows with
  | false => exact hw
  | true => exact hw

lemma length_bytes (h : tv.OfBuild pl) : (tv.bytes pl).length = pl.sizeofTimeoutT := by
  cases tv with
  | timeval tv_sec tv_usec =>
    have hw : pl.windows = false := h
    simp [bytes, Platform.sizeofTimeoutT, hw]
  | dword ms =>
    have hw : pl.windows = true := h
    simp [bytes, Platform.sizeofTimeoutT, hw]

variable (pl) in
lemma intOfBytes_int64 (v : Int64) :
    (UInt64.ofNat (intOfBytes pl.bigEndian (intBytes pl.bigEndian 8 v.toUInt64.toNat))).toInt64 =
      v := by
  rw [intOfBytes_intBytes _ v.toUInt64.toNat_lt, UInt64.ofNat_toNat]
  rfl

/-- A variable into which a value has been copied holds it. -/
lemma ofMemory_store (h : tv.OfBuild pl) {n : Nat} {m m' : Memory n}
    (hm : m.store 0 (tv.bytes pl) = some m') : ofMemory pl m' = tv := by
  cases tv with
  | timeval tv_sec tv_usec =>
    have hw : pl.windows = false := h
    have hsec : m'.slice 0 8 = intBytes pl.bigEndian 8 tv_sec.toUInt64.toNat := by
      rw [Memory.slice_store hm (Nat.le_refl 0) (by simp [bytes]), Nat.sub_zero, List.drop_zero,
        bytes, List.take_left' (length_intBytes _ _ _)]
    have husec : m'.slice 8 8 = intBytes pl.bigEndian 8 tv_usec.toUInt64.toNat := by
      rw [Memory.slice_store hm (Nat.zero_le 8) (by simp [bytes]), Nat.sub_zero, bytes,
        List.drop_left' (length_intBytes _ _ _),
        List.take_of_length_le (length_intBytes _ _ _).le]
    rw [ofMemory, hw, hsec, husec, intOfBytes_int64, intOfBytes_int64]
    rfl
  | dword ms =>
    have hw : pl.windows = true := h
    have hms : m'.slice 0 4 = intBytes pl.bigEndian 4 ms.toNat :=
      Memory.slice_store_self hm (length_intBytes _ _ _).symm
    rw [ofMemory, hw, hms, intOfBytes_intBytes _ ms.toNat_lt, UInt32.ofNat_toNat]
    rfl

variable (pl) in
/-- Different values have different bytes. -/
lemma bytes_injective : Function.Injective (bytes pl) := by
  intro tv tv' h
  have hlen := congrArg List.length h
  cases tv with
  | timeval tv_sec tv_usec =>
    cases tv' with
    | timeval tv_sec' tv_usec' =>
      obtain ⟨hsec, husec⟩ := List.append_inj h (by simp)
      rw [← intOfBytes_int64 pl tv_sec, hsec, intOfBytes_int64, ← intOfBytes_int64 pl tv_usec,
        husec, intOfBytes_int64]
    | dword ms' => simp [bytes] at hlen
  | dword ms =>
    cases tv' with
    | timeval tv_sec' tv_usec' => simp [bytes] at hlen
    | dword ms' =>
      have hms : intBytes pl.bigEndian 4 ms.toNat = intBytes pl.bigEndian 4 ms'.toNat := h
      have hval := congrArg (intOfBytes pl.bigEndian) hms
      rw [intOfBytes_intBytes _ ms.toNat_lt, intOfBytes_intBytes _ ms'.toNat_lt] at hval
      rw [UInt32.toNat_inj.mp hval]

end TimeoutT

namespace TimeoutWorld

variable {pl} {s t : TimeoutWorld} {x : Nat} {option : Int} {sock : Socket} {timeout : Int64}
  {key : Int × Int × Int}

/-! ### Setting and reading -/

lemma this_eq (hx : s.world.socks.get x = some sock) : sockets (World.this x) s = .ok sock s :=
  Prog.zoom_of_ok (World.this_eq hx)

variable (pl option timeout) in
/-- The state after a successful setting. -/
def timed (s : TimeoutWorld) (fd : Int) : TimeoutWorld where
  world := s.world.called
    (.setsockopt fd pl.SOL_SOCKET option ((microsecondsToTimeoutT pl timeout).bytes pl))
  kept := Function.update s.kept (fd, pl.SOL_SOCKET, option)
    ((microsecondsToTimeoutT pl timeout).bytes pl)

lemma setTimeout_ok (hx : s.world.socks.get x = some sock) :
    setTimeout pl option x timeout (.ok ()) s =
      .ok () (s.timed pl option timeout sock.m_sockFD) := by
  refine (Prog.bind_of_ok (this_eq hx)).trans ?_
  exact Prog.bind_of_ok (Prog.zoom_of_ok (World.request_eq hx _ _))

variable (pl option timeout) in
/-- The value is handed over whatever the system answers. -/
lemma setTimeout_calls (hx : s.world.socks.get x = some sock) (answer : Except Int Unit) :
    ∃ t, (setTimeout pl option x timeout answer s).resume = some t ∧
      t.world.kernel.calls = .setsockopt sock.m_sockFD pl.SOL_SOCKET option
        ((microsecondsToTimeoutT pl timeout).bytes pl) :: s.world.kernel.calls := by
  cases answer with
  | ok u =>
    rw [setTimeout_ok hx]
    exact ⟨_, rfl, rfl⟩
  | error errno =>
    have hthrow : setTimeout pl option x timeout (.error errno) s = .throw (sysErr pl errno)
        { s with world := s.world.called (.setsockopt sock.m_sockFD pl.SOL_SOCKET option
          ((microsecondsToTimeoutT pl timeout).bytes pl)) } := by
      refine (Prog.bind_of_ok (this_eq hx)).trans ?_
      refine Prog.bind_of_throw ?_
      rw [sockets, Prog.zoom, World.setOption, World.request_eq hx]
      rfl
    rw [hthrow]
    exact ⟨_, rfl, rfl⟩

/-- The getter returns what it makes of the value that is kept. -/
lemma getTimeout_ok (hx : s.world.socks.get x = some sock) {tv : TimeoutT} (hb : tv.OfBuild pl)
    (hkept : s.kept (sock.m_sockFD, pl.SOL_SOCKET, option) = tv.bytes pl) {r : Int64}
    (hr : timeoutTToMicroseconds tv = some r) (junk : Nat → UInt8) :
    ∃ u, getTimeout pl option x junk (.ok ()) s = .ok r u := by
  have hlen := TimeoutT.length_bytes hb
  have hfits : 0 + (tv.bytes pl).length ≤ pl.sizeofTimeoutT := by omega
  obtain ⟨m, hm⟩ := (Memory.uninit pl.sizeofTimeoutT junk).exists_store hfits
  refine ⟨⟨s.world.called (.getsockopt sock.m_sockFD pl.SOL_SOCKET option), s.kept⟩, ?_⟩
  refine (Prog.bind_of_ok (this_eq hx)).trans ?_
  refine (Prog.bind_of_ok rfl).trans ?_
  refine (Prog.bind_of_ok (Prog.zoom_of_ok (World.request_eq hx _ _))).trans ?_
  change (Prog.demand ((Memory.uninit pl.sizeofTimeoutT junk).store 0
    ((s.kept (sock.m_sockFD, pl.SOL_SOCKET, option)).take pl.sizeofTimeoutT)) _ >>= _) _ = _
  rw [hkept, List.take_of_length_le hlen.le, hm]
  refine (Prog.bind_of_ok rfl).trans ?_
  rw [TimeoutT.ofMemory_store hb hm, hr]
  rfl

/-! ### Runs -/

lemma wp_sockets {α : Type} {m : SockProg α} {Q : α → TimeoutWorld → Prop}
    {E : Exn → TimeoutWorld → Prop} {F : Fault → Prop} :
    Prog.wp (sockets m) Q E F s ↔
      Prog.wp m (fun a w => Q a { s with world := w }) (fun e w => E e { s with world := w }) F
        s.world := by
  rw [sockets, Prog.wp_zoom]

variable (pl) in
/-- All that a setter may do: it hands over a value, which the kernel keeps if it accepts it. -/
structure SetEffect (option : Int) (x : Nat) (sock : Socket) (s t : TimeoutWorld) : Prop where
  live : s.world.socks.get x = some sock
  effect : ∃ timeout : Int64,
    t.world = s.world.called (.setsockopt sock.m_sockFD pl.SOL_SOCKET option
      ((microsecondsToTimeoutT pl timeout).bytes pl)) ∧
    (t.kept = s.kept ∨ t.kept = Function.update s.kept (sock.m_sockFD, pl.SOL_SOCKET, option)
      ((microsecondsToTimeoutT pl timeout).bytes pl))

variable (pl) in
/-- All that a getter may do. -/
structure GetEffect (option : Int) (x : Nat) (sock : Socket) (s t : TimeoutWorld) : Prop where
  live : s.world.socks.get x = some sock
  effect : t = { s with
    world := s.world.called (.getsockopt sock.m_sockFD pl.SOL_SOCKET option) }

lemma setTimeout_effect (answer : Except Int Unit) :
    Prog.wp (setTimeout pl option x timeout answer)
      (fun _ t => ∃ sock, SetEffect pl option x sock s t)
      (fun _ t => ∃ sock, SetEffect pl option x sock s t) (fun _ => True) s := by
  rw [setTimeout, Prog.wp_bind, wp_sockets, World.wp_this_iff]
  refine ⟨fun sock hx => ?_, fun _ => trivial⟩
  rw [Prog.wp_bind, wp_sockets, World.setOption, World.wp_request hx]
  constructor
  · intro _ _
    exact ⟨sock, hx, _, rfl, Or.inr rfl⟩
  · intro _ _
    exact ⟨sock, hx, _, rfl, Or.inl rfl⟩

lemma getTimeout_effect (junk : Nat → UInt8) (answer : Except Int Unit) :
    Prog.wp (discard (getTimeout pl option x junk answer))
      (fun _ t => ∃ sock, GetEffect pl option x sock s t)
      (fun _ t => ∃ sock, GetEffect pl option x sock s t) (fun _ => True) s := by
  rw [discard, Prog.wp_bind, getTimeout, Prog.wp_bind, wp_sockets, World.wp_this_iff]
  refine ⟨fun sock hx => ?_, fun _ => trivial⟩
  rw [Prog.wp_bind, Prog.wp_gets, Prog.wp_bind, wp_sockets, World.getOption, World.wp_request hx]
  refine ⟨fun _ _ => ?_, fun _ _ => ⟨sock, hx, rfl⟩⟩
  -- the value is copied, then converted; either may be undefined
  rw [Prog.wp_bind, Prog.wp_demand]
  refine ⟨fun m _ => ?_, fun _ => trivial⟩
  rw [Prog.wp_demand]
  exact ⟨fun _ _ => ⟨sock, hx, rfl⟩, fun _ => trivial⟩

end TimeoutWorld

namespace TimeoutOp

/-- Where a setter overwrites what the kernel keeps. -/
def overwrites (s : TimeoutWorld) : TimeoutOp → Option (Int × Int × Int)
  | .setSendTimeout x _ _ =>
    (s.world.socks.get x).map fun sock => (sock.m_sockFD, pl.SOL_SOCKET, pl.SO_SNDTIMEO)
  | .setReceiveTimeout x _ _ =>
    (s.world.socks.get x).map fun sock => (sock.m_sockFD, pl.SOL_SOCKET, pl.SO_RCVTIMEO)
  | .getSendTimeout _ _ _ => none
  | .getReceiveTimeout _ _ _ => none

end TimeoutOp

namespace TimeoutWorld

variable {pl} {s t : TimeoutWorld} {x : Nat} {option : Int} {sock : Socket} {timeout : Int64}
  {key : Int × Int × Int}

lemma SetEffect.overwrites (h : SetEffect pl option x sock s t) :
    (s.world.socks.get x).map (fun sock => (sock.m_sockFD, pl.SOL_SOCKET, option)) =
      some (sock.m_sockFD, pl.SOL_SOCKET, option) := by
  rw [h.live]
  rfl

/-- All that a step may do. -/
lemma step_cases {op : TimeoutOp} (h : op.step pl s = some t) :
    ∃ option x sock,
      (SetEffect pl option x sock s t ∧
        op.overwrites pl s = some (sock.m_sockFD, pl.SOL_SOCKET, option)) ∨
      GetEffect pl option x sock s t := by
  cases op with
  | setSendTimeout x timeout answer =>
    obtain ⟨sock, hset⟩ := Prog.resume_of_wp (setTimeout_effect answer) h
    exact ⟨_, x, sock, Or.inl ⟨hset, hset.overwrites⟩⟩
  | getSendTimeout x junk answer =>
    obtain ⟨sock, hget⟩ := Prog.resume_of_wp (getTimeout_effect junk answer) h
    exact ⟨_, x, sock, Or.inr hget⟩
  | setReceiveTimeout x timeout answer =>
    obtain ⟨sock, hset⟩ := Prog.resume_of_wp (setTimeout_effect answer) h
    exact ⟨_, x, sock, Or.inl ⟨hset, hset.overwrites⟩⟩
  | getReceiveTimeout x junk answer =>
    obtain ⟨sock, hget⟩ := Prog.resume_of_wp (getTimeout_effect junk answer) h
    exact ⟨_, x, sock, Or.inr hget⟩

/-- What the sockets go through is a member call that sets or reads an option. -/
theorem step_refines {op : TimeoutOp} (h : op.step pl s = some t) :
    ∃ x m, (Member.exec pl x m s.world).resume = some t.world := by
  obtain ⟨option, x, sock, ⟨⟨hx, timeout, hworld, -⟩, -⟩ | ⟨hx, ht⟩⟩ := step_cases h
  · refine ⟨x, .setOption pl.SOL_SOCKET option
      ((microsecondsToTimeoutT pl timeout).bytes pl) (.ok ()), ?_⟩
    rw [Member.exec, World.setOption, World.request_eq hx, hworld]
    rfl
  · refine ⟨x, .getOption pl.SOL_SOCKET option (.error 0), ?_⟩
    have hthrow : World.getOption pl x pl.SOL_SOCKET option (.error 0) s.world =
        .throw (sysErr pl 0) (s.world.called (.getsockopt sock.m_sockFD pl.SOL_SOCKET option)) :=
      World.request_eq hx _ _
    rw [Member.exec, discard, Prog.bind_of_throw hthrow, ht]
    rfl

/-- The objects, and what is kept under a key, are those of `s`. -/
structure Framed (key : Int × Int × Int) (s t : TimeoutWorld) : Prop where
  socks : t.world.socks = s.world.socks
  kept : t.kept key = s.kept key

lemma Framed.trans {u : TimeoutWorld} (h : Framed key s t) (h' : Framed key t u) :
    Framed key s u :=
  ⟨h'.socks.trans h.socks, h'.kept.trans h.kept⟩

/-- A step leaves alone what it does not overwrite. -/
lemma step_framed {op : TimeoutOp} (h : op.step pl s = some t)
    (hkey : op.overwrites pl s ≠ some key) : Framed key s t := by
  obtain ⟨option, x, sock, ⟨⟨-, timeout, hworld, hkept⟩, hover⟩ | ⟨-, rfl⟩⟩ := step_cases h
  · refine ⟨by rw [hworld]; rfl, ?_⟩
    rcases hkept with hsame | hupdate
    · rw [hsame]
    · rw [hover] at hkey
      rw [hupdate]
      exact Function.update_of_ne (fun heq => hkey (congrArg some heq.symm)) _ _
  · exact ⟨rfl, rfl⟩

/-- So does a run. -/
lemma run_framed {ops : List TimeoutOp} (hr : run (TimeoutOp.step pl) s ops = some t)
    (hg : Guarded (TimeoutOp.step pl) (fun s op => op.overwrites pl s ≠ some key) s ops) :
    Framed key s t := by
  refine (along_of_guarded (I := Framed key s) ?_ ⟨rfl, rfl⟩ hg).last hr
  intro s' op t' h hop hstep
  exact h.trans (step_framed hstep hop)

end TimeoutWorld

/-! ### What setters hand over -/

/-- The microseconds of a `timeval` are less than a second. -/
def TimeoutT.Normal : TimeoutT → Prop
  | .timeval _ tv_usec => 0 ≤ tv_usec.toInt ∧ tv_usec.toInt ≤ 999999
  | .dword _ => True

/-- The value for waiting for ever. -/
def TimeoutT.forever : TimeoutT := if pl.windows then .dword 0 else .timeval 0 0

/-- Option values are compared as `timercmp` does it, and on Windows as numbers. -/
def TimeoutT.AtMost : TimeoutT → TimeoutT → Prop
  | .timeval tv_sec tv_usec, .timeval tv_sec' tv_usec' =>
    tv_sec.toInt < tv_sec'.toInt ∨ tv_sec.toInt = tv_sec'.toInt ∧ tv_usec.toInt ≤ tv_usec'.toInt
  | .dword ms, .dword ms' => ms.toNat ≤ ms'.toNat
  | _, _ => False

namespace TimeoutWorld

/-- Every call of a setter with the time-out hands the value over to `setsockopt`, whatever that
answers. -/
def Hands (set : Nat → Int64 → Except Int Unit → TimeoutProg Unit) (option : Int)
    (timeout : Int64) (tv : TimeoutT) : Prop :=
  ∀ (s : TimeoutWorld) (x : Nat) (sock : Socket) (answer : Except Int Unit),
    s.world.socks.get x = some sock → ∃ t, (set x timeout answer s).resume = some t ∧
      t.world.kernel.calls =
        .setsockopt sock.m_sockFD pl.SOL_SOCKET option (tv.bytes pl) :: s.world.kernel.calls

/-- One socket, with time-outs that have never been set. -/
def oneSocket : TimeoutWorld where
  world := { World.initial true [] with socks := Store.empty.push ⟨true, 3, 2, 1, 0⟩ }
  kept := fun _ => []

lemma hands_iff {option : Int} {timeout : Int64} {tv : TimeoutT} :
    Hands pl (setTimeout pl option) option timeout tv ↔ tv = microsecondsToTimeoutT pl timeout := by
  constructor
  · intro h
    have hx : oneSocket.world.socks.get 0 = some ⟨true, 3, 2, 1, 0⟩ := rfl
    obtain ⟨t, ht, hcalls⟩ := h oneSocket 0 _ (.ok ()) hx
    obtain ⟨t', ht', hcalls'⟩ := setTimeout_calls pl option timeout hx (.ok ())
    obtain rfl : t = t' := Option.some.inj (ht.symm.trans ht')
    rw [hcalls, List.cons.injEq, Call.setsockopt.injEq] at hcalls'
    exact TimeoutT.bytes_injective pl hcalls'.1.2.2.2
  · rintro rfl s x sock answer hx
    exact setTimeout_calls pl option timeout hx answer

/-! ### Reading back -/

/-- The smallest difference that an option value can tell, in microseconds. -/
def granularity : Int := if pl.windows then 1000 else 1

/-- The value handed over is normal. After the setter has succeeded, the getter returns the
time-out, rounded down, in every run that does not set it again. -/
structure ReadsBack (set : Nat → Int64 → Except Int Unit → TimeoutProg Unit)
    (get : Nat → (Nat → UInt8) → Except Int Unit → TimeoutProg Int64) (option : Int)
    (s : TimeoutWorld) (x : Nat) (fd : Int) (timeout : Int64) : Prop where
  normal : ∃ tv, Hands pl set option timeout tv ∧ tv.Normal
  read : ∃ t, set x timeout (.ok ()) s = .ok () t ∧ ∀ ops u,
    Guarded (TimeoutOp.step pl)
      (fun s op => op.overwrites pl s ≠ some (fd, pl.SOL_SOCKET, option)) t ops →
    run (TimeoutOp.step pl) t ops = some u →
    ∀ junk, ∃ us w, get x junk (.ok ()) u = .ok us w ∧
      us.toInt = timeout.toInt - timeout.toInt % granularity pl

lemma normal_microsecondsToTimeoutT {timeout : Int64} (h0 : 0 ≤ timeout.toInt) :
    (microsecondsToTimeoutT pl timeout).Normal := by
  cases hw : pl.windows with
  | false =>
    obtain ⟨tv_sec, tv_usec, htv, -, husec⟩ := microsecondsToTimeoutT_posix hw h0
    rw [htv, TimeoutT.Normal, husec]
    omega
  | true =>
    obtain ⟨ms, htv, -⟩ := microsecondsToTimeoutT_windows hw h0
    rw [htv]
    trivial

/-- The getter in every state that a run leads to after the setter. -/
lemma getTimeout_after {s t u : TimeoutWorld} {x : Nat} {option : Int} {sock : Socket}
    {timeout : Int64} (hx : s.world.socks.get x = some sock)
    (ht : setTimeout pl option x timeout (.ok ()) s = .ok () t)
    {ops : List TimeoutOp} (hg : Guarded (TimeoutOp.step pl)
      (fun s op => op.overwrites pl s ≠ some (sock.m_sockFD, pl.SOL_SOCKET, option)) t ops)
    (hr : run (TimeoutOp.step pl) t ops = some u) {r : Int64}
    (hread : timeoutTToMicroseconds (microsecondsToTimeoutT pl timeout) = some r)
    (junk : Nat → UInt8) : ∃ w, getTimeout pl option x junk (.ok ()) u = .ok r w := by
  have hframe := run_framed hr hg
  rw [setTimeout_ok hx] at ht
  cases ht
  have hxu : u.world.socks.get x = some sock := by
    rw [hframe.socks]
    exact hx
  apply getTimeout_ok hxu (TimeoutT.ofBuild_microsecondsToTimeoutT pl timeout) _ hread
  rw [hframe.kept]
  exact Function.update_self _ _ _

/-- Only on Windows can a time-out be too long to be read back. -/
lemma readsBack_iff {s : TimeoutWorld} {x : Nat} (option : Int) {sock : Socket} {timeout : Int64}
    (hx : s.world.socks.get x = some sock) (h0 : 0 ≤ timeout.toInt)
    (hms : timeout.toInt / 1000 < 2 ^ 32) :
    ReadsBack pl (setTimeout pl option) (getTimeout pl option) option s x sock.m_sockFD timeout ↔
      (pl.windows = true → timeout.toInt / 1000 ≤ 4294967) := by
  obtain ⟨r, hr, hval⟩ := exists_readBack pl h0
  have hround : r.toInt = timeout.toInt - timeout.toInt % granularity pl ↔
      (pl.windows = true → timeout.toInt / 1000 ≤ 4294967) := by
    rw [hval, granularity]
    cases pl.windows with
    | false => simp
    | true =>
      simp only [if_true, forall_const]
      omega
  rw [← hround]
  constructor
  · rintro ⟨-, t, ht, hread⟩
    obtain ⟨us, w, hget, hus⟩ := hread [] t trivial rfl (fun _ => 0)
    have hnone : Guarded (TimeoutOp.step pl)
        (fun s op => op.overwrites pl s ≠ some (sock.m_sockFD, pl.SOL_SOCKET, option)) t [] :=
      trivial
    obtain ⟨w', hget'⟩ := getTimeout_after pl hx ht hnone rfl hr (fun _ => 0)
    rw [hget] at hget'
    cases hget'
    exact hus
  · intro hrounded
    refine ⟨⟨_, (hands_iff pl).mpr rfl, normal_microsecondsToTimeoutT pl h0⟩, _,
      setTimeout_ok hx, ?_⟩
    intro ops u hg hrun junk
    obtain ⟨w, hget⟩ := getTimeout_after pl hx (setTimeout_ok hx) hg hrun hr junk
    exact ⟨r, w, hget, hrounded⟩

/-- Time-outs read back as they were set on POSIX, and on Windows exactly up to the milliseconds
whose product with 1000 is below 2 ^ 32. -/
theorem timeout_reads_back_iff (s : TimeoutWorld) (x : Nat) (sock : Socket)
    (hx : s.world.socks.get x = some sock) (timeout : Int64) (h0 : 0 ≤ timeout.toInt)
    (hms : timeout.toInt / 1000 < 2 ^ 32) :
    (ReadsBack pl (setSendTimeout pl) (getSendTimeout pl) pl.SO_SNDTIMEO s x sock.m_sockFD timeout ↔
      (pl.windows = true → timeout.toInt / 1000 ≤ 4294967)) ∧
    (ReadsBack pl (setReceiveTimeout pl) (getReceiveTimeout pl) pl.SO_RCVTIMEO s x sock.m_sockFD
        timeout ↔ (pl.windows = true → timeout.toInt / 1000 ≤ 4294967)) :=
  ⟨readsBack_iff pl pl.SO_SNDTIMEO hx h0 hms, readsBack_iff pl pl.SO_RCVTIMEO hx h0 hms⟩

/-- A minute and a half. -/
theorem timeout_reads_back_iff_linux :
    ReadsBack linuxHost (setSendTimeout linuxHost) (getSendTimeout linuxHost)
      linuxHost.SO_SNDTIMEO oneSocket 0 3 90000000 :=
  (timeout_reads_back_iff linuxHost oneSocket 0 ⟨true, 3, 2, 1, 0⟩ rfl 90000000 (by decide)
    (by decide)).1.mpr fun h => by cases h

/-- On Windows 4294968 milliseconds, less than 72 minutes, are read back as 704 microseconds. -/
theorem timeout_does_not_read_back : ¬∀ timeout : Int64, 0 ≤ timeout.toInt →
    timeout.toInt / 1000 < 2 ^ 32 →
    ReadsBack (numericHost true false true) (setSendTimeout (numericHost true false true))
      (getSendTimeout (numericHost true false true)) (numericHost true false true).SO_SNDTIMEO
      oneSocket 0 3 timeout := by
  intro h
  have hread := h 4294968000 (by decide) (by decide)
  have hshort := (readsBack_iff (numericHost true false true) _
    (show oneSocket.world.socks.get 0 = some ⟨true, 3, 2, 1, 0⟩ from rfl) (by decide)
    (by decide)).mp hread rfl
  exact absurd hshort (by decide)

/-! ### Finite time-outs -/

/-- The value handed over does not mean for ever, and that of a shorter time-out is not larger. -/
def KeepsFinite (set : Nat → Int64 → Except Int Unit → TimeoutProg Unit) (option : Int)
    (timeout : Int64) : Prop :=
  ∃ tv, Hands pl set option timeout tv ∧ tv ≠ .forever pl ∧
    ∀ shorter : Int64, 0 < shorter.toInt → shorter.toInt ≤ timeout.toInt →
      ∃ tv', Hands pl set option shorter tv' ∧ tv'.AtMost tv

lemma keepsFinite_iff_value (option : Int) (timeout : Int64) :
    KeepsFinite pl (setTimeout pl option) option timeout ↔
      microsecondsToTimeoutT pl timeout ≠ .forever pl ∧
      ∀ shorter : Int64, 0 < shorter.toInt → shorter.toInt ≤ timeout.toInt →
        (microsecondsToTimeoutT pl shorter).AtMost (microsecondsToTimeoutT pl timeout) := by
  constructor
  · rintro ⟨tv, htv, hne, hmono⟩
    obtain rfl := (hands_iff pl).mp htv
    refine ⟨hne, fun shorter hpos hle => ?_⟩
    obtain ⟨tv', htv', hatMost⟩ := hmono shorter hpos hle
    obtain rfl := (hands_iff pl).mp htv'
    exact hatMost
  · rintro ⟨hne, hmono⟩
    refine ⟨_, (hands_iff pl).mpr rfl, hne, fun shorter hpos hle => ?_⟩
    exact ⟨_, (hands_iff pl).mpr rfl, hmono shorter hpos hle⟩

/-- Seconds and microseconds together are compared as the time-out is. -/
lemma atMost_posix (hw : pl.windows = false) {shorter timeout : Int64} (h0 : 0 ≤ shorter.toInt)
    (hle : shorter.toInt ≤ timeout.toInt) :
    (microsecondsToTimeoutT pl shorter).AtMost (microsecondsToTimeoutT pl timeout) := by
  obtain ⟨tv_sec, tv_usec, htv, hsec, husec⟩ := microsecondsToTimeoutT_posix hw h0
  obtain ⟨tv_sec', tv_usec', htv', hsec', husec'⟩ :=
    microsecondsToTimeoutT_posix hw (h0.trans hle)
  rw [htv, htv', TimeoutT.AtMost, hsec, husec, hsec', husec']
  omega

lemma ne_forever_posix (hw : pl.windows = false) {timeout : Int64} (hpos : 0 < timeout.toInt) :
    microsecondsToTimeoutT pl timeout ≠ .forever pl := by
  obtain ⟨tv_sec, tv_usec, htv, hsec, husec⟩ := microsecondsToTimeoutT_posix hw hpos.le
  rw [htv, TimeoutT.forever, hw, if_neg Bool.false_ne_true]
  intro h
  injection h with hsec0 husec0
  have h0 : (0 : Int64).toInt = 0 := rfl
  rw [hsec0, h0] at hsec
  rw [husec0, h0] at husec
  omega

lemma ne_forever_windows_iff (hw : pl.windows = true) {timeout : Int64}
    (h0 : 0 ≤ timeout.toInt) :
    microsecondsToTimeoutT pl timeout ≠ .forever pl ↔ timeout.toInt / 1000 % 2 ^ 32 ≠ 0 := by
  obtain ⟨ms, htv, hms⟩ := microsecondsToTimeoutT_windows hw h0
  rw [htv, TimeoutT.forever, if_pos hw, ← hms, not_iff_not, TimeoutT.dword.injEq,
    ← UInt32.toNat_inj]
  exact Int.natCast_eq_zero.symm

lemma atMost_windows_iff (hw : pl.windows = true) {shorter timeout : Int64}
    (h0 : 0 ≤ shorter.toInt) (h0' : 0 ≤ timeout.toInt) :
    (microsecondsToTimeoutT pl shorter).AtMost (microsecondsToTimeoutT pl timeout) ↔
      shorter.toInt / 1000 % 2 ^ 32 ≤ timeout.toInt / 1000 % 2 ^ 32 := by
  obtain ⟨ms, htv, hms⟩ := microsecondsToTimeoutT_windows hw h0
  obtain ⟨ms', htv', hms'⟩ := microsecondsToTimeoutT_windows hw h0'
  rw [htv, htv', ← hms, ← hms', TimeoutT.AtMost, Int.ofNat_le]

/-- The longest time-out whose milliseconds fit in a `DWORD`. -/
def longest : Int64 := 4294967295000

lemma keepsFinite_iff (option : Int) {timeout : Int64} (hpos : 0 < timeout.toInt) :
    KeepsFinite pl (setTimeout pl option) option timeout ↔
      (pl.windows = true → 1000 ≤ timeout.toInt ∧ (timeout.toInt / 1000 < 2 ^ 32 ∨
        timeout.toInt / 1000 % 2 ^ 32 = 2 ^ 32 - 1)) := by
  rw [keepsFinite_iff_value]
  cases hw : pl.windows with
  | false =>
    refine iff_of_true ⟨ne_forever_posix pl hw hpos, ?_⟩ (fun h => by cases h)
    intro shorter hpos' hle
    exact atMost_posix pl hw hpos'.le hle
  | true =>
    rw [ne_forever_windows_iff pl hw hpos.le, imp_iff_right rfl]
    constructor
    · rintro ⟨hne, hmono⟩
      by_cases hfits : timeout.toInt / 1000 < 2 ^ 32
      · exact ⟨by omega, Or.inl hfits⟩
      · have hval : longest.toInt = 4294967295000 := rfl
        have hlongest := (atMost_windows_iff pl hw (by rw [hval]; omega) hpos.le).mp
          (hmono longest (by rw [hval]; omega) (by rw [hval]; omega))
        rw [hval] at hlongest
        exact ⟨by omega, Or.inr (by omega)⟩
    · rintro ⟨hmin, hmax⟩
      refine ⟨by omega, fun shorter hpos' hle => ?_⟩
      rw [atMost_windows_iff pl hw hpos'.le hpos.le]
      omega

/-- A finite time-out stays finite, and no shorter than the shorter ones, always on POSIX. On
Windows it has to have a millisecond, and either not more of them than a `DWORD` holds, or low bits
that are all set. -/
theorem finite_timeout_kept_iff (timeout : Int64) (hpos : 0 < timeout.toInt) :
    (KeepsFinite pl (setSendTimeout pl) pl.SO_SNDTIMEO timeout ↔
      (pl.windows = true → 1000 ≤ timeout.toInt ∧ (timeout.toInt / 1000 < 2 ^ 32 ∨
        timeout.toInt / 1000 % 2 ^ 32 = 2 ^ 32 - 1))) ∧
    (KeepsFinite pl (setReceiveTimeout pl) pl.SO_RCVTIMEO timeout ↔
      (pl.windows = true → 1000 ≤ timeout.toInt ∧ (timeout.toInt / 1000 < 2 ^ 32 ∨
        timeout.toInt / 1000 % 2 ^ 32 = 2 ^ 32 - 1))) :=
  ⟨keepsFinite_iff pl pl.SO_SNDTIMEO hpos, keepsFinite_iff pl pl.SO_RCVTIMEO hpos⟩

/-- A microsecond. -/
theorem finite_timeout_kept_iff_linux :
    KeepsFinite linuxHost (setReceiveTimeout linuxHost) linuxHost.SO_RCVTIMEO 1 :=
  (finite_timeout_kept_iff linuxHost 1 (by decide)).2.mpr fun h => by cases h

/-- On Windows half a millisecond is rounded down to 0, which means for ever, and so is what a
`DWORD` keeps of 2 ^ 32 milliseconds. -/
theorem finite_timeout_not_kept : (¬∀ timeout : Int64, 0 < timeout.toInt →
    KeepsFinite (numericHost true false true) (setReceiveTimeout (numericHost true false true))
      (numericHost true false true).SO_RCVTIMEO timeout) ∧
    microsecondsToTimeoutT (numericHost true false true) 4294967296000 =
      .forever (numericHost true false true) := by
  refine ⟨fun h => ?_, rfl⟩
  have hmin := ((keepsFinite_iff (numericHost true false true) _ (by decide)).mp
    (h 500 (by decide)) rfl).1
  exact absurd hmin (by decide)

end TimeoutWorld

end SockLib
