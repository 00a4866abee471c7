import SockLib.Proofs.Frames
import SockLib.Proofs.PathLifetime

/-!
# No pathname is left behind

A destructor removes the pathname that its socket was bound to. So the pathnames that the
library makes are those of sockets that are still there, and no other file is ever removed.
-/

namespace SockLib

/-- The files of the start are there, and every other one is the pathname of an open descriptor
that an object owns, or that has been returned to the caller. -/
def NoneLeftBehind (files : List (List UInt8)) (s : World) : Prop :=
  (∀ p ∈ files, p ∈ s.kernel.files) ∧
  ∀ p ∈ s.kernel.files, p ∉ files → ∃ i d, s.kernel.descs.get i = some d ∧ d.isOpen = true ∧
    d.boundPath = some p ∧ (Owned s.socks d.number ∨ 0 < d.handed)

variable {pl : Platform} {s t : World} {op : SocketOp} {files : List (List UInt8)}

/-! ### Members stay together -/

/-- An object with `m_validFD` has its members from an object that was there, or owns a new
descriptor. -/
lemma Effect.whole (he : Effect pl s op t) {z : Nat} {w : Socket}
    (hz : t.socks.get z = some w) (hw : w.m_validFD = true) :
    (∃ y, s.socks.get y = some w) ∨ s.kernel.lookup w.m_sockFD = none := by
  cases he with
  | created hfree hlib =>
    rw [Store.get_push] at hz
    split at hz
    · cases hz
      exact Or.inr hfree
    · exact Or.inl ⟨z, hz⟩
  | accepted hx hi hd hfree hlib =>
    rw [Store.get_push] at hz
    split at hz
    · cases hz
      exact Or.inr hfree
    · exact Or.inl ⟨z, hz⟩
  | paired hfree0 hfree1 hne hcs =>
    rw [get_pairUp] at hz
    split at hz
    · cases hz
      exact Or.inr hfree0
    · split at hz
      · cases hz
        exact Or.inr hfree1
      · exact Or.inl ⟨z, hz⟩
  | moved hy =>
    rw [Store.get_put (Store.get_push_of_some hy _)] at hz
    split at hz
    · cases hz
      cases hw
    · rw [Store.get_push] at hz
      split at hz
      · cases hz
        exact Or.inl ⟨_, hy⟩
      · exact Or.inl ⟨z, hz⟩
  | @exchanged op x y a b socks hop hx hy hsocks =>
    obtain ⟨c, hc⟩ := Store.exists_get_put hx hy b
    rw [hsocks, Store.get_put hc, Store.get_put hx] at hz
    split at hz
    · cases hz
      exact Or.inl ⟨x, hx⟩
    · split at hz
      · cases hz
        exact Or.inl ⟨y, hy⟩
      · exact Or.inl ⟨z, hz⟩
  | released hx =>
    rw [Store.get_put hx] at hz
    split at hz
    · cases hz
      cases hw
    · exact Or.inl ⟨z, hz⟩
  | forgotten hx hv =>
    rw [Store.get_erase] at hz
    split at hz
    · cases hz
    · exact Or.inl ⟨z, hz⟩
  | closed hx hv h =>
    rw [h.socks, Store.get_erase] at hz
    split at hz
    · cases hz
    · exact Or.inl ⟨z, hz⟩
  | served hx h =>
    rw [h.socks] at hz
    exact Or.inl ⟨z, hz⟩
  | _ => exact Or.inl ⟨z, hz⟩

/-! ### Binding -/

namespace World

variable {x : Nat} {v : Socket}

/-- Nothing has been bound, or the pathname of a unix socket. -/
def BindsUnix (pl : Platform) (v : Socket) (s t : World) : Prop :=
  (t.kernel.descs = s.kernel.descs ∧ t.kernel.files = s.kernel.files) ∨
    v.m_domain = pl.domainOf .unix

lemma bind_bindsUnix (hx : s.socks.get x = some v) (address : SockaddrStorage) (len : Nat)
    (answer : Except Int Unit) :
    Prog.wp (bind pl x address len answer) (fun _ => BindsUnix pl v s)
      (fun _ => BindsUnix pl v s) (fun _ => True) s := by
  by_cases hd : ssFamily pl address = v.m_domain
  · rw [bind, Prog.wp_bind, wp_this hx]
    simp only [hd, ne_eq, not_true_eq_false, if_false, Prog.wp_bind]
    rw [wp_request hx]
    refine ⟨fun _ _ => ?_, fun _ _ => Or.inl ⟨rfl, rfl⟩⟩
    rw [wp_kernelStep]
    refine ⟨fun k hk => ?_, fun _ => trivial⟩
    cases hp : kernelPath pl address len with
    | some p => exact Or.inr (hd.symm.trans (family_of_kernelPath hp))
    | none =>
      rw [hp] at hk
      left
      obtain ⟨i, hi, hk⟩ := Option.bind_eq_some_iff.mp hk
      obtain ⟨d, -, hk⟩ := Option.bind_eq_some_iff.mp hk
      change (if d.localPath = none then some _ else none) = some k at hk
      split at hk
      · cases hk
        exact ⟨rfl, rfl⟩
      · cases hk
  · apply Prog.wp_mono (bind_rejects hx hd)
    · intro _ _ hno
      exact hno.elim
    · rintro _ _ rfl
      exact Or.inl ⟨rfl, rfl⟩
    · intro _ h
      exact h

/-- Of all members only `bind` makes a pathname. -/
lemma member_bindsUnix (hx : s.socks.get x = some v) (m : Member) :
    Prog.wp (m.exec pl x) (fun _ => BindsUnix pl v s) (fun _ => BindsUnix pl v s)
      (fun _ => True) s := by
  cases hm : m.binds with
  | false =>
    have hsteady : Steady pl (BindsUnix pl v s) := .of_addr (fun _ _ h => h) (fun _ _ h => h)
    exact member_steady hsteady (Or.inl ⟨rfl, rfl⟩) x m hm fun _ _ _ _ h => h
  | true =>
    cases m with
    | bind address len answer => exact bind_bindsUnix hx address len answer
    | bindAddress fr address answer =>
      apply ofAddress_spec
      intro _ _ _ st _ _ _ _ len
      exact bind_bindsUnix hx st len answer
    | _ => cases hm

end World

/-- A member on an object with `m_validFD` binds its own descriptor. -/
lemma binds_of_step {x : Nat} {v : Socket} {m : Member}
    (hs : SocketOp.step pl s (.member x m) = some t) (hx : s.socks.get x = some v) :
    World.BindsUnix pl v s t := by
  apply Prog.resume_of_wp (P := World.BindsUnix pl v s) (F := fun _ => True) ?_ hs
  have hx' : (SocketOp.start s).socks.get x = some v := hx
  rw [SocketOp.exec, Prog.wp_bind, World.wp_this hx']
  exact World.member_bindsUnix hx' m

lemma unchanged_of_rejected {x : Nat} {v : Socket} {m : Member}
    (hs : SocketOp.step pl s (.member x m) = some t) (hx : s.socks.get x = some v)
    (hr : Rejected pl s v m) : t = SocketOp.start s := by
  apply Prog.resume_of_wp (P := fun u => u = SocketOp.start s) (F := fun _ => True) ?_ hs
  have hx' : (SocketOp.start s).socks.get x = some v := hx
  rw [SocketOp.exec, Prog.wp_bind, World.wp_this hx']
  apply Prog.wp_mono (World.member_rejects hx' (rejected_start.mpr hr))
  · intro _ _ hno
    exact hno.elim
  · intro _ _ h
    exact h
  · intro _ h
    exact h

/-! ### The invariant -/

variable (pl files) in
structure Tidy (s : World) : Prop extends Exclusive s where
  kept : ∀ p ∈ files, p ∈ s.kernel.files
  foreign : ∀ i d p, s.kernel.descs.get i = some d → d.localPath = some p → p ∉ files
  reported : ∀ i d p, s.kernel.descs.get i = some d → d.boundPath = some p →
    d.localPath = some p
  unixOnly : ∀ x v i d, s.socks.get x = some v → v.m_validFD = true →
    s.kernel.descs.get i = some d → d.isOpen = true → d.number = v.m_sockFD →
    d.boundPath ≠ none → v.m_domain = pl.domainOf .unix
  alive : ∀ p ∈ s.kernel.files, p ∉ files → ∃ i d, s.kernel.descs.get i = some d ∧
    d.isOpen = true ∧ d.boundPath = some p ∧ (Owned s.socks d.number ∨ 0 < d.handed)

namespace Tidy

lemma initial (b : Bool) : Tidy pl files (World.initial b files) where
  toExclusive := Exclusive.initial b files
  kept _ hp := hp
  foreign i d p hd := by cases hd
  reported i d p hd := by cases hd
  unixOnly x v i d hx := by cases hx
  alive p hp hno := absurd hp hno

lemma noneLeftBehind (h : Tidy pl files s) : NoneLeftBehind files s := ⟨h.kept, h.alive⟩

/-- No file changes. New descriptors are not bound, and those that were bound are still held. -/
lemma transfer (h : Tidy pl files s) (he : Effect pl s op t)
    (hfiles : t.kernel.files = s.kernel.files)
    (hback : ∀ i d, t.kernel.descs.get i = some d →
      (d.boundPath = none ∧ ∀ p, d.localPath = some p → p ∉ files) ∨
      ∃ c, s.kernel.descs.get i = some c ∧ (d.isOpen = true → c.isOpen = true) ∧
        d.number = c.number ∧ d.localPath = c.localPath ∧ d.boundPath = c.boundPath)
    (hforth : ∀ i c, s.kernel.descs.get i = some c → c.isOpen = true →
      Owned s.socks c.number ∨ 0 < c.handed → ∃ d, t.kernel.descs.get i = some d ∧
        d.isOpen = true ∧ d.boundPath = c.boundPath ∧ (Owned t.socks d.number ∨ 0 < d.handed)) :
    Tidy pl files t where
  toExclusive := h.toExclusive.effect he
  kept p hp := hfiles ▸ h.kept p hp
  foreign i d p hd hp := by
    obtain ⟨-, hnew⟩ | ⟨c, hc, -, -, hlocal, -⟩ := hback i d hd
    · exact hnew p hp
    · exact h.foreign i c p hc (hlocal ▸ hp)
  reported i d p hd hp := by
    obtain ⟨hnew, -⟩ | ⟨c, hc, -, -, hlocal, hbound⟩ := hback i d hd
    · rw [hnew] at hp
      cases hp
    · rw [hlocal]
      exact h.reported i c p hc (hbound ▸ hp)
  unixOnly x v i d hx hv hd hopen hnum hp := by
    obtain ⟨hnew, -⟩ | ⟨c, hc, hopen', hnum', -, hbound⟩ := hback i d hd
    · exact absurd hnew hp
    · rcases he.whole hx hv with ⟨y, hy⟩ | hfree
      · exact h.unixOnly y v i c hy hv hc (hopen' hopen) (hnum'.symm.trans hnum) (hbound ▸ hp)
      · exact absurd (hnum'.symm.trans hnum)
          (Kernel.number_ne_of_lookup hfree hc (hopen' hopen))
  alive p hp hno := by
    obtain ⟨i, c, hc, hopen, hbound, hheld⟩ := h.alive p (hfiles ▸ hp) hno
    obtain ⟨d, hd, hopen', hbound', hheld'⟩ := hforth i c hc hopen hheld
    exact ⟨i, d, hd, hopen', hbound'.trans hbound, hheld'⟩

/-- Only objects have changed. -/
lemma of_sameKernel (h : Tidy pl files s) (he : Effect pl s op t)
    (hdescs : t.kernel.descs = s.kernel.descs) (hfiles : t.kernel.files = s.kernel.files)
    (howned : ∀ n, Owned s.socks n → Owned t.socks n) : Tidy pl files t := by
  apply h.transfer he hfiles
  · intro i d hd
    rw [hdescs] at hd
    exact Or.inr ⟨d, hd, id, rfl, rfl, rfl⟩
  · intro i c hc hopen hheld
    exact ⟨c, hdescs ▸ hc, hopen, rfl, hheld.imp_left (howned c.number)⟩

/-- A new descriptor is not bound. -/
lemma of_push (h : Tidy pl files s) (he : Effect pl s op t) {n : Int}
    {localPath : Option (List UInt8)} (hlocal : ∀ p, localPath = some p → p ∉ files)
    (hdescs : t.kernel.descs = s.kernel.descs.push { number := n, localPath })
    (hfiles : t.kernel.files = s.kernel.files)
    (howned : ∀ n, Owned s.socks n → Owned t.socks n) : Tidy pl files t := by
  apply h.transfer he hfiles
  · intro i d hd
    rw [hdescs, Store.get_push] at hd
    split at hd
    · cases hd
      exact Or.inl ⟨rfl, hlocal⟩
    · exact Or.inr ⟨d, hd, id, rfl, rfl, rfl⟩
  · intro i c hc hopen hheld
    have hd := Store.get_push_of_some hc { number := n, localPath }
    exact ⟨c, hdescs ▸ hd, hopen, rfl, hheld.imp_left (howned c.number)⟩

/-- The number of an object is returned to the caller. -/
lemma of_hand (h : Tidy pl files s) (he : Effect pl s op t) {n : Int}
    (hdescs : t.kernel.descs = (s.kernel.hand n).descs)
    (hfiles : t.kernel.files = s.kernel.files)
    (howned : ∀ m, Owned s.socks m → m = n ∨ Owned t.socks m) : Tidy pl files t := by
  cases hl : s.kernel.lookup n with
  | none =>
    rw [Kernel.hand_of_lookup_none hl] at hdescs
    apply h.of_sameKernel he hdescs hfiles
    intro m hm
    rcases howned m hm with rfl | hm
    · exact absurd hm (h.not_owned hl)
    · exact hm
  | some k =>
    obtain ⟨e, hek, hopenk, hnumk⟩ := Kernel.exists_of_lookup hl
    have hget := fun i => Kernel.get_hand hl i
    apply h.transfer he hfiles
    · intro i d hd
      rw [hdescs, hget] at hd
      split at hd
      · obtain ⟨c, hc, rfl⟩ := Option.map_eq_some_iff.mp hd
        exact Or.inr ⟨c, hc, id, rfl, rfl, rfl⟩
      · exact Or.inr ⟨d, hd, id, rfl, rfl, rfl⟩
    · intro i c hc hopen hheld
      rw [hdescs, hget]
      split
      · refine ⟨{ c with handed := c.handed + 1 }, ?_, hopen, rfl, Or.inr (Nat.succ_pos _)⟩
        rw [hc]
        rfl
      · next hik =>
        refine ⟨c, hc, hopen, rfl, hheld.imp_left fun hm => ?_⟩
        rcases howned c.number hm with hn | hm
        · exact absurd (h.numbers i k c e hc hek hopen hopenk (hn.trans hnumk.symm)) hik
        · exact hm

/-- A destructor closes its descriptor and removes the pathname that it was bound to. -/
lemma of_closed (h : Tidy pl files s) (hw : pl.windows = false) {x : Nat} {v : Socket}
    {name : NameAnswer} (ha : SocketOp.answered pl s (.destroy x name) = true)
    (he : Effect pl s (.destroy x name) t) (hx : s.socks.get x = some v)
    (hv : v.m_validFD = true) : Tidy pl files t := by
  have hc := he.destroyed hx hv
  obtain ⟨k, e, hl, hek, hopenk, hnumk⟩ := h.lookup ⟨x, v, hx, hv, rfl⟩
  have hname : SocketOp.answersName pl s.kernel v.m_sockFD name = true := by
    simpa [SocketOp.answered, hx, hv] using ha
  have hget : ∀ i, t.kernel.descs.get i = if i = k then
      (s.kernel.descs.get i).map (fun d => { d with isOpen := false, closes := d.closes + 1 })
      else s.kernel.descs.get i := by
    intro i
    rw [hc.descs_eq]
    exact Kernel.get_close hl i
  have hback : ∀ i d, t.kernel.descs.get i = some d → ∃ c, s.kernel.descs.get i = some c ∧
      (d.isOpen = true → c.isOpen = true) ∧ d.number = c.number ∧ d.localPath = c.localPath ∧
      d.boundPath = c.boundPath := by
    intro i d hd
    rw [hget] at hd
    split at hd
    · obtain ⟨c, hci, rfl⟩ := Option.map_eq_some_iff.mp hd
      exact ⟨c, hci, fun hopen => (by cases hopen), rfl, rfl, rfl⟩
    · exact ⟨d, hd, id, rfl, rfl, rfl⟩
  -- the removed pathname is the local one, in the domain of unix sockets
  have hpath : ∀ p, unlinkedPath pl v name = some p → e.localPath = some p := by
    intro p hp
    have hdom : v.m_domain = pl.domainOf .unix := by
      unfold unlinkedPath at hp
      split at hp
      · split at hp
        · next hcond => exact hcond.2.1
        · cases hp
      · cases hp
    rw [← unlinkedPath_of_answers hname hl hek hw hdom, hp]
  refine ⟨h.toExclusive.effect he, ?_, ?_, ?_, ?_, ?_⟩
  · intro p hp
    rw [hc.files]
    refine List.mem_filter.mpr ⟨h.kept p hp, ?_⟩
    simp only [decide_eq_true_eq]
    intro heq
    exact h.foreign k e p hek (hpath p heq.symm) hp
  · intro i d p hd hp
    obtain ⟨c, hci, -, -, hlocal, -⟩ := hback i d hd
    exact h.foreign i c p hci (hlocal ▸ hp)
  · intro i d p hd hp
    obtain ⟨c, hci, -, -, hlocal, hbound⟩ := hback i d hd
    rw [hlocal]
    exact h.reported i c p hci (hbound ▸ hp)
  · intro y w i d hy hwv hd hopen hnum hp
    obtain ⟨c, hci, hopen', hnum', -, hbound⟩ := hback i d hd
    rw [hc.socks, Store.get_erase] at hy
    split at hy
    · cases hy
    · exact h.unixOnly y w i c hy hwv hci (hopen' hopen) (hnum'.symm.trans hnum) (hbound ▸ hp)
  · intro p hp hno
    rw [hc.files] at hp
    obtain ⟨hp, hne⟩ := List.mem_filter.mp hp
    obtain ⟨i, c, hci, hopen, hbound, hheld⟩ := h.alive p hp hno
    have hik : i ≠ k := by
      rintro rfl
      obtain rfl : e = c := Option.some.inj (hek.symm.trans hci)
      have hdom := h.unixOnly x v i e hx hv hek hopenk hnumk (by simp [hbound])
      have hun := unlinkedPath_of_answers hname hl hek hw hdom
      rw [h.reported i e p hek hbound] at hun
      simp [hun] at hne
    refine ⟨i, c, (hget i).trans ((if_neg hik).trans hci), hopen, hbound, hheld.imp_left ?_⟩
    intro hn
    rw [hc.socks]
    refine (owned_without h.sole hx hv fun _ _ => owner_erase).mpr ⟨hn, fun hnum => hik ?_⟩
    exact h.numbers i k c e hci hek hopen hopenk (hnum.trans hnumk.symm)

/-- A pathname is bound that is not there yet, to a descriptor that the object owns. -/
lemma of_served (h : Tidy pl files s) {x : Nat} {v : Socket} {m : Member}
    (hs : SocketOp.step pl s (.member x m) = some t) (hx : s.socks.get x = some v)
    (hv : v.m_validFD = true) : Tidy pl files t := by
  have he := step_effect hs
  obtain ⟨hsocks, hre⟩ : t.socks = s.socks ∧ s.kernel.Rebound v.m_sockFD t.kernel := by
    cases he with
    | exchanged hop => rcases hop with hop | ⟨_, hop⟩ <;> cases hop
    | served hx' h' =>
      obtain rfl : v = _ := Option.some.inj (hx.symm.trans hx')
      exact ⟨h'.socks, h'.kernel⟩
  have howned : ∀ n, Owned s.socks n → Owned t.socks n := by
    intro n hn
    rw [hsocks]
    exact hn
  rcases hre with ⟨hdescs, hfiles⟩ | ⟨k, e, q, hl, hek, hlocal, hnew, hdescs, hfiles⟩
  · exact h.of_sameKernel he hdescs hfiles howned
  · obtain ⟨e', hek', hopenk, hnumk⟩ := Kernel.exists_of_lookup hl
    obtain rfl : e = e' := Option.some.inj (hek.symm.trans hek')
    have hdom : v.m_domain = pl.domainOf .unix := by
      rcases binds_of_step hs hx with ⟨-, hsame⟩ | hdom
      · rw [hfiles] at hsame
        exact absurd (congrArg List.length hsame) (by simp)
      · exact hdom
    have hget := Store.get_put hek { e with localPath := some q, boundPath := some q }
    have hfresh : q ∉ files := fun hq => hnew (h.kept q hq)
    refine ⟨h.toExclusive.effect he, ?_, ?_, ?_, ?_, ?_⟩
    · intro p hp
      rw [hfiles]
      exact List.mem_cons_of_mem q (h.kept p hp)
    · intro i d p hd hp
      rw [hdescs, hget] at hd
      split at hd
      · cases hd
        cases hp
        exact hfresh
      · exact h.foreign i d p hd hp
    · intro i d p hd hp
      rw [hdescs, hget] at hd
      split at hd
      · cases hd
        exact hp
      · exact h.reported i d p hd hp
    · intro y w i d hy hwv hd hopen hnum hp
      rw [hsocks] at hy
      rw [hdescs, hget] at hd
      split at hd
      · cases hd
        have hxy : x = y := h.sole x y v.m_sockFD ⟨v, hx, hv, rfl⟩
          ⟨w, hy, hwv, hnum.symm.trans hnumk⟩
        subst hxy
        obtain rfl : v = w := Option.some.inj (hx.symm.trans hy)
        exact hdom
      · exact h.unixOnly y w i d hy hwv hd hopen hnum hp
    · intro p hp hno
      rw [hfiles] at hp
      rcases List.mem_cons.mp hp with rfl | hp
      · refine ⟨k, { e with localPath := some p, boundPath := some p },
          hdescs ▸ (hget k).trans (if_pos rfl), hopenk, rfl, Or.inl ?_⟩
        exact howned _ ⟨x, v, hx, hv, hnumk.symm⟩
      · obtain ⟨i, c, hci, hopen, hbound, hheld⟩ := h.alive p hp hno
        have hik : i ≠ k := by
          rintro rfl
          obtain rfl : e = c := Option.some.inj (hek.symm.trans hci)
          rw [h.reported i e p hek hbound] at hlocal
          cases hlocal
        exact ⟨i, c, hdescs ▸ (hget i).trans ((if_neg hik).trans hci), hopen, hbound,
          hheld.imp_left (howned c.number)⟩

lemma step (h : Tidy pl files s) (hw : pl.windows = false) (hg : OnOwner pl s op)
    (hs : SocketOp.answeredStep pl s op = some t) : Tidy pl files t := by
  unfold SocketOp.answeredStep at hs
  split at hs
  · next ha =>
    have he := step_effect hs
    cases he with
    | created hfree hlib =>
      apply h.of_push (step_effect hs) (fun p hp => (by cases hp)) rfl rfl
      exact fun n hn => (owned_push _).mpr (Or.inl hn)
    | @accepted x v i d peer hx hi hd hfree hlib =>
      apply h.of_push (step_effect hs) (fun p hp => h.foreign i d p hd hp) rfl rfl
      exact fun n hn => (owned_push _).mpr (Or.inl hn)
    | lost hx hi hd hfree hlib hl => exact absurd hlib (Library.not_startFails_of_posix hw _)
    | @paired ty protocol fd0 fd1 junk junk' cs hfree0 hfree1 hne hcs =>
      apply h.transfer (step_effect hs) rfl
      · intro i d hd
        rw [Store.get_push] at hd
        split at hd
        · cases hd
          exact Or.inl ⟨rfl, fun p hp => (by cases hp)⟩
        · rw [Store.get_push] at hd
          split at hd
          · cases hd
            exact Or.inl ⟨rfl, fun p hp => (by cases hp)⟩
          · exact Or.inr ⟨d, hd, id, rfl, rfl, rfl⟩
      · intro i c hc hopen hheld
        have hd := Store.get_push_of_some (Store.get_push_of_some hc { number := fd0 })
          { number := fd1 }
        refine ⟨c, hd, hopen, rfl, hheld.imp_left fun hn => ?_⟩
        exact (owned_pairUp _ _ _ _).mpr (Or.inl ((owned_push _).mpr (Or.inl hn)))
    | moved hy =>
      exact h.of_sameKernel (step_effect hs) rfl rfl fun n hn => (owned_move hy rfl).mpr hn
    | exchanged hop hx hy hsocks =>
      apply h.of_sameKernel (step_effect hs) rfl rfl
      exact fun n hn => (owned_exchange hx hy hsocks).mpr hn
    | @released x v hx =>
      apply h.of_hand (step_effect hs) (Kernel.descs_hand s.kernel [] v.m_sockFD)
        (Kernel.files_hand _ _)
      rintro m ⟨y, hy⟩
      by_cases hm : m = v.m_sockFD
      · exact Or.inl hm
      · refine Or.inr ⟨y, (owner_disown hx rfl).mpr ⟨?_, hy⟩⟩
        rintro rfl
        exact hm ((owner_iff hx).mp hy).2.symm
    | forgotten hx hv =>
      apply h.of_sameKernel (step_effect hs) rfl rfl
      exact fun n hn => (owned_without_invalid hx hv fun _ _ => owner_erase).mpr hn
    | closed hx hv hc => exact h.of_closed hw ha (step_effect hs) hx hv
    | @served x v m t hx hserved =>
      rcases hg v hx with hv | hrej
      · exact h.of_served hs hx hv
      · have hstart := unchanged_of_rejected hs hx hrej
        exact h.of_sameKernel (step_effect hs) (by rw [hstart]; rfl) (by rw [hstart]; rfl)
          fun n hn => by rw [hstart]; exact hn
    | _ => exact h.of_sameKernel (step_effect hs) rfl rfl fun _ hn => hn
  · cases hs

end Tidy

/-- On a POSIX system, when members are called on objects with `m_validFD`: destructors remove
no other file, and leave nothing behind. -/
theorem no_pathname_left_behind (pl : Platform) (hw : pl.windows = false)
    (autoInitialize : Bool) (files : List (List UInt8)) (ops : List SocketOp)
    (hg : Guarded (SocketOp.answeredStep pl) (OnOwner pl) (World.initial autoInitialize files)
      ops) :
    Along (SocketOp.answeredStep pl) (NoneLeftBehind files) (World.initial autoInitialize files)
      ops := by
  have halong : Along (SocketOp.answeredStep pl) (Tidy pl files)
      (World.initial autoInitialize files) ops :=
    along_of_guarded (fun s op t h hop hs => h.step hw hop hs) (Tidy.initial autoInitialize) hg
  exact halong.mono fun s h => h.noneLeftBehind

/-- A socket is bound to `/a`, moved, and destroyed, next to a file that was there before. -/
def boundAndMoved : List SocketOp :=
  let name : SockaddrStorage := ⟨[1, 0, 47, 97] ++ List.replicate 124 0, rfl⟩
  [.create 1 1 0 (.ok 3), .member 0 (.bind name 5 (.ok ())), .move 0 ⟨false, 9, 1, 1, 0⟩,
    .destroy 0 (.error 0), .destroy 1 (.ok (name, 5))]

theorem no_pathname_left_behind_linux :
    Along (SocketOp.answeredStep linuxHost) (NoneLeftBehind [[47, 98]])
      (World.initial true [[47, 98]]) boundAndMoved := by
  apply no_pathname_left_behind linuxHost rfl true [[47, 98]] boundAndMoved
  refine .cons rfl trivial (.cons rfl ?_ (.cons rfl trivial (.cons rfl trivial
    (.cons rfl trivial trivial))))
  intro v hv
  cases hv
  exact Or.inl rfl

example : (run (SocketOp.answeredStep linuxHost) (World.initial true [[47, 98]])
    boundAndMoved).map (fun s => s.kernel.files) = some [[47, 98]] := by
  decide +kernel

end SockLib
