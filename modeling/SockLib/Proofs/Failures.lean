import SockLib.Proofs.Bystanders
import SockLib.Proofs.Handles

/-!
# Failures change nothing

Whoever catches an exception of the library goes on with the sockets, descriptors, pathnames and
addresses there were. An address that was to be assigned to is another matter, and so is the
number of users of the library: the constructor of a socket enters a user before it makes a
descriptor.
-/

namespace SockLib

variable {pl : Platform}

/-- What a program does with its sockets and its addresses. -/
inductive WorldOp where
  | program (op : ProgramOp)
  | address (op : AddressOp)

/-- Moving and destroying, which never fail. -/
def AddressOp.moves : AddressOp → Bool
  | .move _ => true
  | .moveAssign _ _ => true
  | .destroy _ => true
  | _ => false

/-- Moving, giving away and destroying. -/
def SocketOp.moves : SocketOp → Bool
  | .move .. => true
  | .moveAssign .. => true
  | .swap .. => true
  | .socketFD .. => true
  | .destroy .. => true
  | _ => false

/-- The variable that may fail to be assigned to. -/
def AddressOp.assigned : AddressOp → Option Nat
  | .copyAssign _ x _ => some x
  | .assign x _ _ => some x
  | _ => none

namespace WorldOp

def moves : WorldOp → Bool
  | .program (.library op) => op.moves
  | .program (.close _) => false
  | .address op => op.moves

variable (pl)

def assigned : WorldOp → Option Nat
  | .program _ => none
  | .address op => op.assigned

def step (s : World) : WorldOp → Option World
  | .program op => op.step pl s
  | .address op => (op.step pl s.addr).map fun a => { s with addr := a }

/-- The state after an operation that has thrown. -/
def thrown (s : World) : WorldOp → Option World
  | .program (.library op) => (op.exec pl (SocketOp.start s)).thrown
  | .program (.close _) => none
  | .address op => (op.exec pl s.addr).thrown.map fun a => { s with addr := a }

/-- No assignment gives up an object without a new one. -/
def KeepsObject (s : World) : WorldOp → Prop
  | .program _ => True
  | .address op => SockLib.KeepsObject pl s.addr op

end WorldOp

variable (pl) in
/-- Nothing has happened, but for the value of one variable at most. -/
structure Spared (y : Option Nat) (s t : World) : Prop where
  socks : t.socks = s.socks
  descs : t.kernel.descs = s.kernel.descs
  files : t.kernel.files = s.kernel.files
  owning : Owning pl t.addr
  values : ∀ x v, y ≠ some x → s.addr.valueOf x = some v → t.addr.valueOf x = some v

namespace Addresses

variable {s : Addresses}

/-! ### Addresses -/

/-- The new address is complete before the old one is given up. -/
lemma replaceAddress_undisturbed (hw : pl.LibraryWorks) (h : Owning pl s) (from_ : Nat)
    (st : SockaddrStorage) (len : Nat) :
    Prog.wp (replaceAddress pl from_ st len) (fun _ _ => True) (fun _ => Undisturbed pl s)
      (fun _ => True) s := by
  have hkept : Prog.wp (ofStorage pl st len) (fun _ => Undisturbed pl s)
      (fun _ => Undisturbed pl s) (fun _ => True) s := ofStorage_undisturbed hw h
  have hmade : Prog.wp (ofStorage pl st len) (fun tmp t => ∃ b, t.vars.get tmp = some b)
      (fun _ _ => True) (fun _ => True) s :=
    ofStorage_made fun _ _ _ _ _ => ⟨_, s.vars.get_push_self _⟩
  rw [replaceAddress, Prog.wp_bind]
  apply Prog.wp_mono (Prog.wp_and hkept hmade)
  · rintro tmp t ⟨-, b, hb⟩
    cases ha : t.vars.get from_ with
    | none => simp [moveAssign, setDomain, this, ha, hb]
    | some a => exact (wp_moveAssign_destroy pl ha hb).mpr trivial
  · intro _ t ht
    exact ht.1
  · intro _ _
    trivial

lemma replaceAddress_owning (h : Owning pl s) (from_ : Nat) (st : SockaddrStorage) (len : Nat) :
    Prog.wp (replaceAddress pl from_ st len) (fun _ => Owning pl) (fun _ => Owning pl)
      (fun _ => True) s := by
  have hop : ∀ {t : Addresses} (op : AddressOp), Owning pl t → KeepsObject pl t op →
      Prog.wp (op.exec pl) (fun _ => Owning pl) (fun _ => Owning pl) (fun _ => True) t := by
    intro t op ht hkeeps
    apply Prog.wp_mono (exec_owning ht op)
    · intro _ _ hu
      exact hu hkeeps
    · intro _ _ hu
      exact hu hkeeps
    · intro _ _
      trivial
  rw [replaceAddress, Prog.wp_bind]
  apply Prog.wp_mono (ofStorage_owning h st len)
  · intro tmp t ht
    rw [Prog.wp_bind]
    apply Prog.wp_mono (hop (.moveAssign from_ tmp) ht trivial)
    · intro _ u hu
      exact hop (.destroy tmp) hu trivial
    · intro _ _ hu
      exact hu
    · intro _ hf
      exact hf
  · intro _ _ ht
    exact ht
  · intro _ _
    trivial

lemma moves_return (hw : pl.LibraryWorks) (h : Owning pl s) {op : AddressOp}
    (hop : op.moves = true) :
    Prog.wp (op.exec pl) (fun _ _ => True) (fun _ _ => False) (fun _ => True) s := by
  cases op with
  | move y =>
    rw [AddressOp.exec, Prog.wp_bind]
    apply wp_of_this trivial
    intro b hy
    exact (wp_move hy).mpr trivial
  | moveAssign x y =>
    apply wp_of_this trivial
    intro b hy
    cases hx : s.vars.get x with
    | none => simp [wp_this hy, setDomain, wp_this_iff, hx]
    | some a => exact (wp_moveAssign hx hy).mpr trivial
  | destroy x =>
    apply wp_of_this trivial
    intro a hx
    rw [Prog.wp_bind, wp_this hx, Prog.wp_bind]
    apply deleteBase_spec pl (h.live hx)
    · trivial
    · intro l hl
      exact absurd hl (hw.not_cleanupFails l)
  | _ => cases hop

/-- What is made or assigned does not change the other values. -/
lemma value_of_step {op : AddressOp} {t : Addresses} {x : Nat} {v : AddressValue}
    (hstep : ValueOp.step pl s.values op.meaning = some t.values)
    (hmoves : op.moves = false) (hx : op.assigned ≠ some x) (hv : s.valueOf x = some v) :
    t.valueOf x = some v := by
  have hassign : ∀ y w, some y ≠ some x → s.values.assign y w = t.values →
      t.valueOf x = some v := by
    intro y w hy heq
    have hxy : x ≠ y := fun hxy => hy (congrArg some hxy.symm)
    have hget := congrFun (congrArg AddressValues.value heq) x
    exact hget.symm.trans ((Function.update_of_ne hxy _ _).trans hv)
  have hskip : s.values.skip = t.values → t.valueOf x = some v := by
    intro heq
    have hget := congrFun (congrArg AddressValues.value heq) x
    exact hget.symm.trans hv
  cases op with
  | default => exact values_of_make (Option.some.inj hstep).symm hv
  | ofString addrstr d =>
    simp only [AddressOp.meaning, ValueOp.step] at hstep
    split at hstep
    · exact values_of_make (Option.some.inj hstep).symm hv
    · exact hskip (Option.some.inj hstep)
  | ofStorage st len =>
    simp only [AddressOp.meaning, ValueOp.step] at hstep
    split at hstep
    · exact values_of_make (Option.some.inj hstep).symm hv
    · exact hskip (Option.some.inj hstep)
    · cases hstep
  | ofBase fr o =>
    obtain ⟨w, -, hw⟩ := Option.map_eq_some_iff.mp hstep
    exact values_of_make hw.symm hv
  | copy fr y =>
    obtain ⟨w, -, hstep⟩ := Option.bind_eq_some_iff.mp hstep
    obtain ⟨w', -, hw⟩ := Option.map_eq_some_iff.mp hstep
    exact values_of_make hw.symm hv
  | move y => cases hmoves
  | copyAssign fr y z =>
    simp only [AddressOp.meaning, ValueOp.step] at hstep
    split at hstep
    · cases hstep
    · obtain ⟨w, -, hw⟩ := Option.map_eq_some_iff.mp hstep
      exact hassign y w hx hw
    · cases hstep
  | moveAssign y z => cases hmoves
  | assign y st len =>
    simp only [AddressOp.meaning, ValueOp.step] at hstep
    split at hstep
    · exact hassign y _ hx (Option.some.inj hstep)
    · exact hassign y _ hx (Option.some.inj hstep)
    · cases hstep
  | destroy y => cases hmoves

/-- What has thrown has not changed the value of a variable that it was not to assign to. -/
lemma exec_spares (hn : pl.NtopTotal) (hw : pl.LibraryWorks) (h : Owning pl s)
    {op : AddressOp} (hg : KeepsObject pl s op) :
    Prog.wp (op.exec pl) (fun _ _ => True)
      (fun _ t => ∀ x v, op.assigned ≠ some x → s.valueOf x = some v → t.valueOf x = some v)
      (fun _ => True) s := by
  cases hmoves : op.moves with
  | false =>
    apply Prog.wp_mono (exec_yields hn hw h hg)
    · intro _ _ _
      trivial
    · intro _ t ht x v hx hv
      exact value_of_step ht hmoves hx hv
    · intro _ _
      trivial
  | true =>
    apply Prog.wp_mono (moves_return hw h hmoves)
    · intro _ _ _
      trivial
    · intro _ _ hno
      exact hno.elim
    · intro _ _
      trivial

end Addresses

/-! ### Members -/

namespace World

variable {s t : World} {x : Nat} {v : Socket} {st : SockaddrStorage} {len : Nat}

lemma spared_of_undisturbed {a : Addresses} (h : Addresses.Undisturbed pl s.addr a)
    (cs : List Call) (y : Option Nat) :
    Spared pl y s { s with addr := a, kernel := { s.kernel with calls := cs } } :=
  ⟨rfl, rfl, rfl, h.1, fun x v _ hv => h.2 x v hv⟩

lemma spared_called (h : Owning pl s.addr) (c : Call) : Spared pl none s (s.called c) :=
  spared_of_undisturbed (.refl h) (c :: s.kernel.calls) none

lemma spared_refl (h : Owning pl s.addr) : Spared pl none s s :=
  spared_of_undisturbed (.refl h) s.kernel.calls none

lemma spared_steady (hw : pl.LibraryWorks) (s : World) : Steady pl (Spared pl none s) where
  called _ _ h := ⟨h.socks, h.descs, h.files, h.owning, h.values⟩
  made t st len h := by
    have hmade : ∀ a, Addresses.Undisturbed pl t.addr a →
        Spared pl none s { t with addr := a } := by
      intro a ha
      refine ⟨h.socks, h.descs, h.files, ha.1, fun x v hx hv => ?_⟩
      exact ha.2 x v (h.values x v hx hv)
    rw [wp_addresses]
    apply Prog.wp_mono (Addresses.ofStorage_undisturbed hw h.owning)
    · intro _ a ha
      exact hmade a ha
    · intro _ a ha
      exact hmade a ha
    · intro _ _
      trivial

/-- The descriptor gets its pathname after all that can fail. -/
lemma bind_spared (h : Owning pl s.addr) (x : Nat) (st : SockaddrStorage) (len : Nat)
    (answer : Except Int Unit) :
    Prog.wp (bind pl x st len answer) (fun _ _ => True) (fun _ => Spared pl none s)
      (fun _ => True) s := by
  apply wp_of_this
  intro v hx
  rw [Prog.wp_bind, wp_this hx]
  by_cases hd : ssFamily pl st = v.m_domain
  · simp only [hd, ne_eq, not_true_eq_false, if_false, Prog.wp_bind]
    rw [wp_request hx]
    refine ⟨fun _ _ => ?_, fun _ _ => spared_called h _⟩
    rw [wp_kernelStep]
    exact ⟨fun _ _ => trivial, fun _ => trivial⟩
  · simp only [hd, ne_eq, not_false_eq_true, if_true, Prog.wp_bind, Prog.wp_raise]
    exact spared_refl h

/-- The address is replaced at the end, or nothing has happened but the system call. -/
lemma receiveFrom_spec {Q E : World → Prop} {x from_ bufSize flags : Nat}
    {answer : Except Int (List UInt8 × SockaddrStorage × Nat)}
    (hreplace : ∀ st len cs, Prog.wp (replaceAddress pl from_ st len)
      (fun _ a => Q { s with addr := a, kernel := { s.kernel with calls := cs } })
      (fun _ a => E { s with addr := a, kernel := { s.kernel with calls := cs } })
      (fun _ => True) s.addr)
    (herror : ∀ c, E (s.called c)) :
    Prog.wp (receiveFrom pl x from_ bufSize flags answer) (fun _ => Q) (fun _ => E)
      (fun _ => True) s := by
  rw [receiveFrom, Prog.wp_bind, receiveRaw]
  cases hx : s.socks.get x with
  | none => simp [request, this, hx]
  | some v =>
    rw [wp_request hx]
    refine ⟨?_, fun _ _ => herror _⟩
    rintro ⟨payload, addr, addrLen⟩ -
    rw [Prog.wp_bind, wp_addresses]
    exact hreplace addr addrLen _

lemma receiveFrom_spared (hw : pl.LibraryWorks) (h : Owning pl s.addr)
    (x from_ bufSize flags : Nat) (answer : Except Int (List UInt8 × SockaddrStorage × Nat)) :
    Prog.wp (receiveFrom pl x from_ bufSize flags answer) (fun _ _ => True)
      (fun _ => Spared pl none s) (fun _ => True) s := by
  apply receiveFrom_spec (Q := fun _ => True)
  · intro st len cs
    apply Prog.wp_mono (Addresses.replaceAddress_undisturbed hw h from_ st len)
    · intro _ _ _
      trivial
    · intro _ a ha
      exact spared_of_undisturbed ha cs none
    · intro _ hf
      exact hf
  · intro c
    exact spared_called h c

lemma receiveFrom_owning (h : Owning pl s.addr) (x from_ bufSize flags : Nat)
    (answer : Except Int (List UInt8 × SockaddrStorage × Nat)) :
    Prog.wp (receiveFrom pl x from_ bufSize flags answer) (fun _ t => Owning pl t.addr)
      (fun _ t => Owning pl t.addr) (fun _ => True) s :=
  receiveFrom_spec (Q := fun t => Owning pl t.addr) (E := fun t => Owning pl t.addr)
    (fun st len _ => Addresses.replaceAddress_owning h from_ st len) fun _ => h

lemma member_spared (hw : pl.LibraryWorks) (h : Owning pl s.addr) (x : Nat) (m : Member) :
    Prog.wp (m.exec pl x) (fun _ _ => True) (fun _ => Spared pl none s) (fun _ => True) s := by
  have hsteady : m.binds = false → m.fills = none →
      Prog.wp (m.exec pl x) (fun _ _ => True) (fun _ => Spared pl none s) (fun _ => True) s := by
    intro hb hf
    apply Prog.wp_mono (member_steady (spared_steady hw s) (spared_refl h) x m hb ?_)
    · intro _ _ _
      trivial
    · intro _ _ ht
      exact ht
    · intro _ _
      trivial
    · intro y hy
      rw [hf] at hy
      cases hy
  cases m with
  | bind address len answer => exact bind_spared h x address len answer
  | bindAddress fr address answer =>
    apply ofAddress_spec
    intro _ _ _ st _ _ _ _ len
    exact bind_spared h x st len answer
  | receiveFrom from_ bufSize flags answer =>
    exact wp_discard.mpr (receiveFrom_spared hw h x from_ bufSize flags answer)
  | _ => exact hsteady rfl rfl

/-! ### Operations -/

lemma create_spared (h : Owning pl s.addr) (d : Nat) (t protocol : Int)
    (answer : Except Int Int) :
    Prog.wp (create pl d t protocol answer) (fun _ _ => True) (fun _ => Spared pl none s)
      (fun _ => True) s := by
  have hlib : ∀ l, Addresses.Undisturbed pl s.addr { s.addr with lib := l } := fun l =>
    .of_same h (fun _ => rfl) (fun _ => rfl)
  rw [create, Prog.wp_bind, wp_enter]
  refine ⟨fun _ => spared_of_undisturbed (hlib _) s.kernel.calls none, fun _ => ?_⟩
  rw [Prog.wp_bind, wp_sysCall, Prog.wp_bind, wp_check]
  refine ⟨fun fd _ => ?_, fun _ _ => spared_of_undisturbed (hlib _) _ none⟩
  rw [Prog.wp_bind, wp_kernelStep]
  exact ⟨fun _ _ => trivial, fun _ => trivial⟩

/-- The new descriptor has an object, because the library is in use or works. -/
lemma accept_spared (hw : pl.LibraryWorks) (h : Owning pl s.addr) (x : Nat)
    (answer : Except Int Int) :
    Prog.wp (accept pl x answer) (fun _ _ => True) (fun _ => Spared pl none s)
      (fun _ => True) s := by
  rw [accept, Prog.wp_bind]
  cases hx : s.socks.get x with
  | none => simp [request, this, hx]
  | some v =>
    rw [wp_request hx]
    refine ⟨fun peer _ => ?_, fun _ _ => spared_called h _⟩
    rw [Prog.wp_bind]
    refine (wp_this (by exact hx)).mpr ?_
    rw [Prog.wp_bind, wp_kernelStep]
    refine ⟨fun k _ => ?_, fun _ => trivial⟩
    rw [wp_wrap]
    exact ⟨fun hlib => absurd hlib (hw.not_startFails _), fun _ => trivial⟩

lemma createUnixPair_spared (hw : pl.LibraryWorks) (h : Owning pl s.addr) (t protocol : Int)
    (junk junk' : Socket) (answer : Except Int (Int × Int)) :
    Prog.wp (createUnixPair pl t protocol junk junk' answer) (fun _ _ => True)
      (fun _ => Spared pl none s) (fun _ => True) s := by
  by_cases hwin : pl.windows = true
  · simp only [createUnixPair, hwin, if_true, Prog.wp_bind, Prog.wp_raise]
    exact spared_refl h
  · simp only [createUnixPair, hwin, Bool.false_eq_true, if_false]
    rw [Prog.wp_bind, wp_sysCall, Prog.wp_bind, wp_check]
    refine ⟨fun fds _ => ?_, fun _ _ => spared_called h _⟩
    rw [Prog.wp_bind, wp_kernelStep]
    refine ⟨fun k _ => ?_, fun _ => trivial⟩
    rw [Prog.wp_bind, wp_kernelStep]
    refine ⟨fun k _ => ?_, fun _ => trivial⟩
    rw [Prog.wp_bind, wp_wrap]
    refine ⟨fun hlib => absurd hlib (hw.not_startFails _), fun _ => ?_⟩
    rw [Prog.wp_bind, wp_wrap]
    refine ⟨fun hlib => absurd hlib (hw.not_startFails _), fun _ => ?_⟩
    simp only [Store.next_push]
    apply returnPair_spec
    trivial

lemma socketFD_returns (s : World) (x : Nat) (takeOwnership : Bool) :
    Prog.wp (socketFD x takeOwnership) (fun _ _ => True) (fun _ _ => False) (fun _ => True) s := by
  apply wp_of_this
  intro v hx
  rw [Prog.wp_bind, wp_this hx]
  cases takeOwnership with
  | false => trivial
  | true =>
    rw [if_pos rfl, Prog.wp_bind, wp_setSocket hx, Prog.wp_bind, wp_kernelStep_some]
    trivial

end World

variable (pl) in
lemma SocketOp.moves_return (s : World) {op : SocketOp} (hop : op.moves = true) :
    Prog.wp (op.exec pl) (fun _ _ => True) (fun _ _ => False) (fun _ => True) s := by
  have hreturns : ∀ {α : Type} {m : SockProg α} {Q : α → World → Prop},
      Prog.wp m Q (fun _ _ => False) (fun _ => True) s →
      Prog.wp m (fun _ _ => True) (fun _ _ => False) (fun _ => True) s := by
    intro α m Q hm
    apply Prog.wp_mono hm
    · intro _ _ _
      trivial
    · intro _ _ hno
      exact hno
    · intro _ hf
      exact hf
  cases op with
  | move y junk =>
    apply World.wp_discard.mpr
    apply World.wp_of_this
    intro b hy
    exact (World.wp_moveConstruct hy).mpr trivial
  | moveAssign x y => exact hreturns (World.swapMembers_next s x y)
  | swap x y junk => exact hreturns (World.swap_next s x y junk)
  | socketFD x takeOwnership =>
    exact World.wp_discard.mpr (World.socketFD_returns s x takeOwnership)
  | destroy x name => exact hreturns (World.destroy_next s x name)
  | _ => cases hop

/-- One lemma for each operation that may throw. -/
lemma SocketOp.exec_spared (hw : pl.LibraryWorks) {s : World} (h : Owning pl s.addr)
    (op : SocketOp) :
    Prog.wp (op.exec pl) (fun _ _ => True) (fun _ => Spared pl none s) (fun _ => True) s := by
  have hmoves : op.moves = true →
      Prog.wp (op.exec pl) (fun _ _ => True) (fun _ => Spared pl none s) (fun _ => True) s := by
    intro hop
    apply Prog.wp_mono (SocketOp.moves_return pl s hop)
    · intro _ _ _
      trivial
    · intro _ _ hno
      exact hno.elim
    · intro _ hf
      exact hf
  cases op with
  | create d t protocol answer =>
    exact World.wp_discard.mpr (World.create_spared h d t protocol answer)
  | accept x answer => exact World.wp_discard.mpr (World.accept_spared hw h x answer)
  | createUnixPair t protocol junk junk' answer =>
    exact World.wp_discard.mpr (World.createUnixPair_spared hw h t protocol junk junk' answer)
  | member x m =>
    apply World.wp_of_this
    intro v hx
    rw [Prog.wp_bind, World.wp_this hx]
    exact World.member_spared hw h x m
  | _ => exact hmoves rfl

/-! ### Runs -/

lemma ProgramOp.step_owning (hw : pl.LibraryWorks) {s t : World} {op : ProgramOp}
    (h : Owning pl s.addr) (hstep : op.step pl s = some t) : Owning pl t.addr := by
  cases op with
  | close n =>
    obtain ⟨k, -, rfl⟩ := Option.map_eq_some_iff.mp hstep
    exact h
  | library op =>
    cases hfills : op.fills with
    | none => exact (step_undisturbed hw h hstep hfills).1
    | some y =>
      cases op with
      | member x m =>
        cases m with
        | receiveFrom from_ bufSize flags answer =>
          refine Prog.resume_of_wp (P := fun t => Owning pl t.addr) (F := fun _ => True) ?_ hstep
          apply World.wp_of_this
          intro v hx
          rw [Prog.wp_bind, World.wp_this hx]
          exact World.wp_discard.mpr
            (World.receiveFrom_owning (by exact h) x from_ bufSize flags answer)
        | _ => cases hfills
      | _ => cases hfills

namespace WorldOp

variable {s t : World} {op : WorldOp}

lemma step_owning (hw : pl.LibraryWorks) (h : Owning pl s.addr) (hg : op.KeepsObject pl s)
    (hstep : op.step pl s = some t) : Owning pl t.addr := by
  cases op with
  | program op => exact op.step_owning hw h hstep
  | address op =>
    obtain ⟨a, ha, rfl⟩ := Option.map_eq_some_iff.mp hstep
    exact Prog.resume_of_wp (exec_owning h op) ha hg

lemma spared_of_thrown (hn : pl.NtopTotal) (hw : pl.LibraryWorks) (h : Owning pl s.addr)
    (hg : op.KeepsObject pl s) (ht : op.thrown pl s = some t) : Spared pl op.assigned s t := by
  cases op with
  | program op =>
    cases op with
    | close n => cases ht
    | library op =>
      have hstart : Owning pl (SocketOp.start s).addr := h
      have hspared := Prog.thrown_of_wp (SocketOp.exec_spared hw hstart op) ht
      exact ⟨hspared.socks, hspared.descs, hspared.files, hspared.owning, hspared.values⟩
  | address op =>
    obtain ⟨a, ha, rfl⟩ := Option.map_eq_some_iff.mp ht
    refine ⟨rfl, rfl, rfl, ?_, ?_⟩
    · exact Prog.thrown_of_wp (P := fun t => SockLib.KeepsObject pl s.addr op → Owning pl t)
        (exec_owning h op) ha hg
    · have hspares := Addresses.exec_spares hn hw h hg
      exact Prog.thrown_of_wp hspares ha

/-- What returns or ends the program leaves nothing to be caught. -/
lemma not_thrown (hw : pl.LibraryWorks) (h : Owning pl s.addr) (hop : op.moves = true) :
    op.thrown pl s = none := by
  by_contra hne
  obtain ⟨t, ht⟩ := Option.ne_none_iff_exists'.mp hne
  cases op with
  | program op =>
    cases op with
    | close n => cases hop
    | library op => exact Prog.thrown_of_wp (SocketOp.moves_return pl _ hop) ht
  | address op =>
    obtain ⟨a, ha, -⟩ := Option.map_eq_some_iff.mp ht
    exact Prog.thrown_of_wp (Addresses.moves_return hw h hop) ha

end WorldOp

/-- Wherever a program gets by operations that give up no object, what fails there changes
nothing but the address that it was to assign to. Moving and destroying does not fail. -/
theorem failures_change_nothing (pl : Platform) (hn : pl.NtopTotal) (hw : pl.LibraryWorks)
    (autoInitialize : Bool) (files : List (List UInt8)) (ops : List WorldOp)
    (hg : Guarded (WorldOp.step pl) (WorldOp.KeepsObject pl)
      (World.initial autoInitialize files) ops) :
    Along (WorldOp.step pl)
      (fun s => (∀ op t, WorldOp.KeepsObject pl s op → WorldOp.thrown pl s op = some t →
        Spared pl op.assigned s t) ∧
        ∀ op, WorldOp.moves op = true → WorldOp.thrown pl s op = none)
      (World.initial autoInitialize files) ops := by
  have hinitial : Owning pl (World.initial autoInitialize files).addr :=
    Owning.of_vars_empty _ _
  have halong := along_of_guarded (I := fun s => Owning pl s.addr)
    (fun s op t h hop hs => WorldOp.step_owning hw h hop hs) hinitial hg
  apply halong.mono
  intro s h
  exact ⟨fun op t hop ht => WorldOp.spared_of_thrown hn hw h hop ht,
    fun op hop => WorldOp.not_thrown hw h hop⟩

/-- Two bytes come from an address of no family. -/
def lettersFromNowhere : List WorldOp :=
  [.address (.ofString (bytes "10.0.0.1") 2), .program (.library (.create 2 2 0 (.ok 3))),
    .program (.library (.member 0
      (.receiveFrom 0 8 0 (.ok ([1, 2], Memory.uninit 128 fun _ => 0, 16)))))]

theorem failures_change_nothing_linux : Along (WorldOp.step linuxHost)
    (fun s => (∀ op t, WorldOp.KeepsObject linuxHost s op →
      WorldOp.thrown linuxHost s op = some t → Spared linuxHost op.assigned s t) ∧
      ∀ op, WorldOp.moves op = true → WorldOp.thrown linuxHost s op = none)
    (World.initial true []) lettersFromNowhere := by
  refine failures_change_nothing linuxHost (ntopTotal_numericHost false false true)
    (libraryWorks_numericHost false false true) true [] lettersFromNowhere ?_
  apply guarded_of_forall
  intro s op hop
  simp only [lettersFromNowhere, List.mem_cons, List.not_mem_nil, or_false] at hop
  rcases hop with rfl | rfl | rfl
  · trivial
  · trivial
  · trivial

example : ((run (WorldOp.step linuxHost) (World.initial true []) lettersFromNowhere).bind
    fun s => s.addr.valueOf 0).map AddressValue.size = some 16 := by
  decide +kernel

end SockLib
