import SockLib.Proofs.SocketRules

/-!
# What one operation does

`Effect` lists the states that an operation on sockets may lead to, one constructor for each
way it can end. Every invariant of a run is a case analysis over it.
-/

namespace SockLib

variable {pl : Platform}

/-- The objects after `createUnixPair`: its two temporaries are gone. -/
def pairUp (socks : Store Socket) (a b j j' : Socket) : Store Socket :=
  let moved := (((socks.push a).push b).push a).put socks.next j
  (((moved.push b).put (socks.next + 1) j').erase (socks.next + 1)).erase socks.next

lemma get_pairUp (socks : Store Socket) (a b j j' : Socket) (z : Nat) :
    (pairUp socks a b j j').get z =
      if z = socks.next + 2 then some a else if z = socks.next + 3 then some b
      else socks.get z := by
  have hlt : ∀ i, socks.next ≤ i → socks.get i = none := by
    intro i hi
    by_contra hne
    obtain ⟨v, hv⟩ := Option.ne_none_iff_exists'.mp hne
    have := Store.lt_next hv
    omega
  have h1 := socks.get_push a
  have h2 := (socks.push a).get_push b
  have h3 := ((socks.push a).push b).get_push a
  have h4 := Store.get_put
    (show (((socks.push a).push b).push a).get socks.next = some a by grind [Store.next_push]) j
  have h5 := ((((socks.push a).push b).push a).put socks.next j).get_push b
  have h6 := Store.get_put (show ((((((socks.push a).push b).push a).put socks.next j).push b).get
    (socks.next + 1)) = some b by grind [Store.next_push, Store.next_put]) j'
  unfold pairUp
  simp only [Store.get_erase]
  grind [Store.next_push, Store.next_put]

/-- The states an operation may end in, normally or by an exception. -/
inductive Effect (pl : Platform) (s : World) : SocketOp → World → Prop where
  | created {d : Nat} {t protocol fd : Int} (hfree : s.kernel.lookup fd = none)
      (hlib : ¬s.addr.lib.StartFails pl) :
      Effect pl s (.create d t protocol (.ok fd))
        ⟨{ s.addr with lib := s.addr.lib.enter }, s.socks.push ⟨true, fd, d, t, protocol⟩,
          ⟨s.kernel.descs.push { number := fd }, s.kernel.files, [.socket d t protocol]⟩⟩
  | notCreated {d : Nat} {t protocol : Int} {answer : Except Int Int} {l : Library}
      {cs : List Call} (hl : s.addr.lib.SameUsers l ∨ l = s.addr.lib.enter)
      (hcs : ∀ c ∈ cs, c = .socket d t protocol) :
      Effect pl s (.create d t protocol answer)
        ⟨{ s.addr with lib := l }, s.socks, { s.kernel with calls := cs }⟩
  | accepted {x : Nat} {v : Socket} {i : Nat} {d : Descriptor} {peer : Int}
      (hx : s.socks.get x = some v) (hi : s.kernel.lookup v.m_sockFD = some i)
      (hd : s.kernel.descs.get i = some d) (hfree : s.kernel.lookup peer = none)
      (hlib : ¬s.addr.lib.StartFails pl) :
      Effect pl s (.accept x (.ok peer))
        ⟨{ s.addr with lib := s.addr.lib.enter },
          s.socks.push ⟨true, peer, v.m_domain, v.m_type, v.m_protocol⟩,
          ⟨s.kernel.descs.push { number := peer, localPath := d.localPath }, s.kernel.files,
            [.accept v.m_sockFD]⟩⟩
  | lost {x : Nat} {v : Socket} {i : Nat} {d : Descriptor} {peer : Int} {l : Library}
      (hx : s.socks.get x = some v) (hi : s.kernel.lookup v.m_sockFD = some i)
      (hd : s.kernel.descs.get i = some d) (hfree : s.kernel.lookup peer = none)
      (hlib : s.addr.lib.StartFails pl) (hl : s.addr.lib.SameUsers l) :
      Effect pl s (.accept x (.ok peer))
        ⟨{ s.addr with lib := l }, s.socks,
          ⟨s.kernel.descs.push { number := peer, localPath := d.localPath }, s.kernel.files,
            [.accept v.m_sockFD]⟩⟩
  | notAccepted {x : Nat} {v : Socket} {answer : Except Int Int} (hx : s.socks.get x = some v) :
      Effect pl s (.accept x answer)
        ⟨s.addr, s.socks, { s.kernel with calls := [.accept v.m_sockFD] }⟩
  | paired {t protocol fd0 fd1 : Int} {junk junk' : Socket} {cs : List Call}
      (hfree0 : s.kernel.lookup fd0 = none) (hfree1 : s.kernel.lookup fd1 = none)
      (hne : fd0 ≠ fd1) (hcs : ∀ c ∈ cs, c = .socketpair (pl.domainOf .unix) t protocol) :
      Effect pl s (.createUnixPair t protocol junk junk' (.ok (fd0, fd1)))
        ⟨{ s.addr with lib := s.addr.lib.enter.enter },
          pairUp s.socks ⟨true, fd0, pl.domainOf .unix, t, protocol⟩
            ⟨true, fd1, pl.domainOf .unix, t, protocol⟩ { junk with m_validFD := false }
            { junk' with m_validFD := false },
          ⟨(s.kernel.descs.push { number := fd0 }).push { number := fd1 }, s.kernel.files, cs⟩⟩
  | notPaired {t protocol : Int} {junk junk' : Socket} {answer : Except Int (Int × Int)}
      {cs : List Call} (hcs : ∀ c ∈ cs, c = .socketpair (pl.domainOf .unix) t protocol) :
      Effect pl s (.createUnixPair t protocol junk junk' answer)
        ⟨s.addr, s.socks, { s.kernel with calls := cs }⟩
  | moved {y : Nat} {b junk : Socket} (hy : s.socks.get y = some b) :
      Effect pl s (.move y junk)
        ⟨s.addr, (s.socks.push b).put y { junk with m_validFD := false },
          { s.kernel with calls := [] }⟩
  | exchanged {op : SocketOp} {x y : Nat} {a b : Socket} {socks : Store Socket}
      (hop : op = .moveAssign x y ∨ ∃ junk, op = .swap x y junk)
      (hx : s.socks.get x = some a) (hy : s.socks.get y = some b)
      (hsocks : ∀ z, socks.get z = ((s.socks.put x b).put y a).get z) :
      Effect pl s op ⟨s.addr, socks, { s.kernel with calls := [] }⟩
  | peeked {x : Nat} : Effect pl s (.socketFD x false) (SocketOp.start s)
  | released {x : Nat} {v : Socket} (hx : s.socks.get x = some v) :
      Effect pl s (.socketFD x true)
        ⟨s.addr, s.socks.put x { v with m_validFD := false },
          (SocketOp.start s).kernel.hand v.m_sockFD⟩
  | forgotten {x : Nat} {v : Socket} {name : NameAnswer} (hx : s.socks.get x = some v)
      (hv : v.m_validFD = false) :
      Effect pl s (.destroy x name) ⟨s.addr, s.socks.erase x, { s.kernel with calls := [] }⟩
  | closed {x : Nat} {v : Socket} {name : NameAnswer} {t : World}
      (hx : s.socks.get x = some v) (hv : v.m_validFD = true)
      (h : Closed pl x v name (SocketOp.start s) t) : Effect pl s (.destroy x name) t
  | served {x : Nat} {v : Socket} {m : Member} {t : World} (hx : s.socks.get x = some v)
      (h : Served v.m_sockFD (SocketOp.start s) t) : Effect pl s (.member x m) t

/-- The destructor of an object that owns a descriptor closes it. -/
lemma Effect.destroyed {s t : World} {x : Nat} {v : Socket} {name : NameAnswer}
    (he : Effect pl s (.destroy x name) t) (hx : s.socks.get x = some v)
    (hv : v.m_validFD = true) : Closed pl x v name (SocketOp.start s) t := by
  cases he with
  | exchanged hop => rcases hop with hop | ⟨_, hop⟩ <;> cases hop
  | forgotten hx' hv' =>
    rw [hx] at hx'
    cases hx'
    rw [hv] at hv'
    cases hv'
  | closed hx' _ hc =>
    rw [hx] at hx'
    cases hx'
    exact hc

lemma Closed.descs_eq {s t : World} {x : Nat} {v : Socket} {name : NameAnswer}
    (hc : Closed pl x v name (SocketOp.start s) t) :
    t.kernel.descs = (s.kernel.close v.m_sockFD).descs :=
  hc.descs.trans (Kernel.descs_close s.kernel [] v.m_sockFD)

/-- A destructor makes its calls on its own descriptor, except that it removes a pathname. -/
lemma Closed.of_mem_calls {s t : World} {x : Nat} {v : Socket} {name : NameAnswer}
    (hc : Closed pl x v name (SocketOp.start s) t) {c : Call} (hmem : c ∈ t.kernel.calls) :
    (∃ p, unlinkedPath pl v name = some p ∧ c = .unlink p) ∨ c.descriptor = some v.m_sockFD := by
  rw [hc.calls] at hmem
  rcases List.mem_append.mp hmem with hpath | hrelease
  · left
    obtain ⟨p, hp, rfl⟩ := Option.map_eq_some_iff.mp (Option.mem_toList.mp hpath)
    exact ⟨p, hp, rfl⟩
  · right
    simp only [releaseCalls, SocketOp.start, List.append_nil, List.mem_append] at hrelease
    split at hrelease <;> grind [Call.descriptor]

lemma Served.of_mem_calls {s t : World} {fd : Int} (h : Served fd (SocketOp.start s) t) {c : Call}
    (hmem : c ∈ t.kernel.calls) : c.descriptor = some fd := by
  obtain ⟨cs, hcs, hall⟩ := h.calls
  apply hall
  rw [hcs] at hmem
  simpa [SocketOp.start] using hmem

namespace World

variable {s : World}

lemma create_effect (s : World) (d : Nat) (t protocol : Int) (answer : Except Int Int) :
    Prog.wp (create pl d t protocol answer)
      (fun _ => Effect pl s (.create d t protocol answer))
      (fun _ => Effect pl s (.create d t protocol answer)) (fun _ => True) (SocketOp.start s) := by
  rw [create, Prog.wp_bind, wp_enter]
  refine ⟨fun _ => ?_, fun hlib => ?_⟩
  · exact .notCreated (Or.inl (Library.sameUsers_startup _)) (by simp)
  · rw [Prog.wp_bind, wp_sysCall, Prog.wp_bind, wp_check]
    refine ⟨fun fd hfd => ?_, fun errno _ => ?_⟩
    · subst hfd
      rw [Prog.wp_bind, wp_kernelStep]
      refine ⟨fun k hk => ?_, fun _ => trivial⟩
      obtain ⟨hfree, rfl⟩ := Kernel.allocate_eq_some hk
      exact .created hfree hlib
    · exact .notCreated (Or.inr rfl) fun c hc => List.mem_singleton.mp hc

lemma accept_effect (s : World) (x : Nat) (answer : Except Int Int) :
    Prog.wp (accept pl x answer) (fun _ => Effect pl s (.accept x answer))
      (fun _ => Effect pl s (.accept x answer)) (fun _ => True) (SocketOp.start s) := by
  cases hx : s.socks.get x with
  | none =>
    have hx' : (SocketOp.start s).socks.get x = none := hx
    simp [accept, request, this, hx']
  | some v =>
    have hx' : (SocketOp.start s).socks.get x = some v := hx
    rw [accept, Prog.wp_bind, wp_request hx']
    refine ⟨fun peer hpeer => ?_, fun errno _ => .notAccepted hx⟩
    subst hpeer
    rw [Prog.wp_bind]
    refine (wp_this (by exact hx)).mpr ?_
    rw [Prog.wp_bind, wp_kernelStep]
    refine ⟨fun k hk => ?_, fun _ => trivial⟩
    obtain ⟨i, hi, hk⟩ := Option.bind_eq_some_iff.mp hk
    obtain ⟨d, hd, hk⟩ := Option.bind_eq_some_iff.mp hk
    obtain ⟨hfree, rfl⟩ := Kernel.allocate_eq_some hk
    rw [wp_wrap]
    refine ⟨fun hlib => ?_, fun hlib => ?_⟩
    · exact .lost hx hi hd hfree hlib (Library.sameUsers_startup _)
    · exact .accepted hx hi hd hfree hlib

lemma lookup_none_of_push {k : Kernel} {n m : Int}
    (h : ({ k with descs := k.descs.push { number := n } } : Kernel).lookup m = none) :
    k.lookup m = none ∧ n ≠ m := by
  constructor
  · by_contra hne
    obtain ⟨i, hi⟩ := Option.ne_none_iff_exists'.mp hne
    obtain ⟨d, hd, hopen, hnum⟩ := Kernel.exists_of_lookup hi
    exact Kernel.number_ne_of_lookup h (Store.get_push_of_some hd _) hopen hnum
  · exact Kernel.number_ne_of_lookup h (k.descs.get_push_self _) rfl

/-- The two temporaries are moved into the pair and destroyed. -/
lemma returnPair_spec {Q : Nat × Nat → World → Prop} {addr : Addresses} {socks : Store Socket}
    {kernel : Kernel} {a b junk junk' : Socket}
    {E : Exn → World → Prop} {F : Fault → Prop}
    (hQ : Q (socks.next + 2, socks.next + 3)
      ⟨addr, pairUp socks a b { junk with m_validFD := false } { junk' with m_validFD := false },
        kernel⟩) :
    Prog.wp (do
        let x ← moveConstruct socks.next junk
        let y ← moveConstruct (socks.next + 1) junk'
        destroy pl (socks.next + 1) (.error 0)
        destroy pl socks.next (.error 0)
        pure (x, y)) Q E F ⟨addr, (socks.push a).push b, kernel⟩ := by
  let j : Socket := { junk with m_validFD := false }
  let j' : Socket := { junk' with m_validFD := false }
  have h1 := socks.get_push a
  have h2 := (socks.push a).get_push b
  have h3 := ((socks.push a).push b).get_push a
  have hfirst : ((socks.push a).push b).get socks.next = some a :=
    Store.get_push_of_some (socks.get_push_self a) b
  have h4 := Store.get_put (Store.get_push_of_some hfirst a) j
  have h5 := ((((socks.push a).push b).push a).put socks.next j).get_push b
  have hsecond : ((((socks.push a).push b).push a).put socks.next j).get (socks.next + 1) =
      some b := by grind [Store.next_push]
  have h6 := Store.get_put (Store.get_push_of_some hsecond b) j'
  have h7 := Store.get_erase
    (((((((socks.push a).push b).push a).put socks.next j).push b).put (socks.next + 1) j'))
    (socks.next + 1)
  rw [Prog.wp_bind]
  refine (wp_moveConstruct (by exact hfirst)).mpr ?_
  rw [Prog.wp_bind]
  refine (wp_moveConstruct (by exact hsecond)).mpr ?_
  rw [Prog.wp_bind]
  refine (wp_destroy_invalid (v := j') (by grind) rfl).mpr ?_
  rw [Prog.wp_bind]
  refine (wp_destroy_invalid (v := j) (by grind [Store.next_push, Store.next_put]) rfl).mpr ?_
  simpa [pairUp] using hQ

lemma createUnixPair_effect (s : World) (t protocol : Int) (junk junk' : Socket)
    (answer : Except Int (Int × Int)) :
    Prog.wp (createUnixPair pl t protocol junk junk' answer)
      (fun _ => Effect pl s (.createUnixPair t protocol junk junk' answer))
      (fun _ => Effect pl s (.createUnixPair t protocol junk junk' answer)) (fun _ => True)
      (SocketOp.start s) := by
  by_cases hw : pl.windows = true
  · simp only [createUnixPair, hw, if_true, Prog.wp_bind, Prog.wp_raise]
    exact .notPaired (by simp)
  · have hposix := Bool.eq_false_iff.mpr hw
    have hcs : ∀ c ∈ [Call.socketpair (pl.domainOf .unix) t protocol],
        c = .socketpair (pl.domainOf .unix) t protocol := fun c hc => List.mem_singleton.mp hc
    simp only [createUnixPair, hposix, Bool.false_eq_true, if_false]
    rw [Prog.wp_bind, wp_sysCall, Prog.wp_bind, wp_check]
    refine ⟨fun fds hfds => ?_, fun errno _ => .notPaired hcs⟩
    obtain ⟨fd0, fd1⟩ := fds
    subst hfds
    rw [Prog.wp_bind, wp_kernelStep]
    refine ⟨fun k hk => ?_, fun _ => trivial⟩
    obtain ⟨hfree0, rfl⟩ := Kernel.allocate_eq_some hk
    rw [Prog.wp_bind, wp_kernelStep]
    refine ⟨fun k hk => ?_, fun _ => trivial⟩
    obtain ⟨hfree1, rfl⟩ := Kernel.allocate_eq_some hk
    obtain ⟨hfree1, hne⟩ := lookup_none_of_push hfree1
    rw [Prog.wp_bind, wp_wrap]
    refine ⟨fun hs => absurd hs (Library.not_startFails_of_posix hposix _), fun _ => ?_⟩
    rw [Prog.wp_bind, wp_wrap]
    refine ⟨fun hs => absurd hs (Library.not_startFails_of_posix hposix _), fun _ => ?_⟩
    simp only [Store.next_push]
    apply returnPair_spec
    exact .paired hfree0 hfree1 hne hcs

lemma moveAssign_effect (s : World) (x y : Nat) :
    Prog.wp (moveAssign x y) (fun _ => Effect pl s (.moveAssign x y))
      (fun _ => Effect pl s (.moveAssign x y)) (fun _ => True) (SocketOp.start s) := by
  cases hx : (SocketOp.start s).socks.get x with
  | none => simp [moveAssign, swapMembers, this, hx]
  | some a =>
    cases hy : (SocketOp.start s).socks.get y with
    | none => simp [moveAssign, swapMembers, this, hx, hy]
    | some b =>
      rw [moveAssign, wp_swapMembers hx hy]
      exact .exchanged (Or.inl rfl) hx hy fun _ => rfl

lemma swap_effect (s : World) (x y : Nat) (junk : Socket) :
    Prog.wp (swap pl x y junk) (fun _ => Effect pl s (.swap x y junk))
      (fun _ => Effect pl s (.swap x y junk)) (fun _ => True) (SocketOp.start s) := by
  cases hx : (SocketOp.start s).socks.get x with
  | none =>
    apply wp_of_this
    intro b hy
    simp [moveConstruct, this, hx, hy]
  | some a =>
    apply wp_of_this
    intro b hy
    apply swap_spec hx hy
    intro socks hsocks
    exact .exchanged (Or.inr ⟨junk, rfl⟩) hx hy hsocks

lemma socketFD_effect (s : World) (x : Nat) (takeOwnership : Bool) :
    Prog.wp (socketFD x takeOwnership) (fun _ => Effect pl s (.socketFD x takeOwnership))
      (fun _ => Effect pl s (.socketFD x takeOwnership)) (fun _ => True) (SocketOp.start s) := by
  apply wp_of_this
  intro v hx
  rw [Prog.wp_bind, wp_this hx]
  cases takeOwnership with
  | false => exact .peeked
  | true =>
    rw [if_pos rfl, Prog.wp_bind, wp_setSocket hx, Prog.wp_bind, wp_kernelStep_some]
    exact .released hx

lemma destroy_effect (s : World) (x : Nat) (name : NameAnswer) :
    Prog.wp (destroy pl x name) (fun _ => Effect pl s (.destroy x name))
      (fun _ => Effect pl s (.destroy x name)) (fun _ => True) (SocketOp.start s) := by
  cases hx : s.socks.get x with
  | none =>
    have hx' : (SocketOp.start s).socks.get x = none := hx
    simp [destroy, noexcept, this, hx']
  | some v =>
    have hx' : (SocketOp.start s).socks.get x = some v := hx
    cases hv : v.m_validFD with
    | false =>
      rw [wp_destroy_invalid hx' hv]
      exact .forgotten hx hv
    | true =>
      have hclosed := destroy_closed pl hx' hv name
      exact Prog.wp_mono hclosed (fun _ _ h => .closed hx hv h) (fun _ _ h => h.elim)
        (fun _ h => h)

end World

/-- All that one operation may do. -/
theorem step_effect {s t : World} {op : SocketOp} (h : SocketOp.step pl s op = some t) :
    Effect pl s op t := by
  apply Prog.resume_of_wp (F := fun _ => True) ?_ h
  cases op with
  | create d t protocol answer =>
    exact World.wp_discard.mpr (World.create_effect s d t protocol answer)
  | accept x answer => exact World.wp_discard.mpr (World.accept_effect s x answer)
  | createUnixPair t protocol junk junk' answer =>
    exact World.wp_discard.mpr (World.createUnixPair_effect s t protocol junk junk' answer)
  | move y junk =>
    rw [SocketOp.exec, World.wp_discard]
    apply World.wp_of_this
    intro b hy
    exact (World.wp_moveConstruct hy).mpr (.moved hy)
  | moveAssign x y => exact World.moveAssign_effect s x y
  | swap x y junk => exact World.swap_effect s x y junk
  | socketFD x takeOwnership =>
    exact World.wp_discard.mpr (World.socketFD_effect s x takeOwnership)
  | destroy x name => exact World.destroy_effect s x name
  | member x m =>
    apply World.wp_of_this
    intro v hx
    rw [Prog.wp_bind, World.wp_this hx]
    exact Prog.wp_mono (World.member_served hx m) (fun _ _ h => .served hx h)
      (fun _ _ h => .served hx h) (fun _ h => h)

end SockLib
