import SockLib.Abstract.Handles
import SockLib.Foundation.Refinement
import SockLib.Proofs.Connections

/-!
# Sockets are handles

A program that releases and accepts only through objects that own a descriptor cannot tell
`sks::socket` from a handle: the numbers the kernel gives, and what a move leaves behind in the
other object, make no difference to what is held, handed over and closed.
-/

namespace SockLib

variable {pl : Platform}

/-! ### What the objects stand for -/

/-- What has become of a descriptor. -/
def Descriptor.custody (d : Descriptor) : Custody :=
  if d.closes = 0 then if d.handed = 0 then .held else .handed else .closed

def Socket.handle (k : Kernel) (v : Socket) : Option Handle :=
  if v.m_validFD = true then
    (k.lookup v.m_sockFD).map fun i => ⟨i, v.m_domain, v.m_type, v.m_protocol⟩
  else none

def World.handles (s : World) : Handles where
  next := s.socks.next
  object x := (s.socks.get x).map (Socket.handle s.kernel)
  descs := s.kernel.descs.next
  custody i := (s.kernel.descs.get i).map Descriptor.custody

/-- What an operation does to the handles. -/
def ProgramOp.meaning (pl : Platform) : ProgramOp → HandleOp
  | .library (.create d t protocol (.ok _)) => .make d t protocol
  | .library (.create _ _ _ (.error _)) => .skip
  | .library (.accept x (.ok _)) => .accept x
  | .library (.accept x (.error _)) => .use x
  | .library (.createUnixPair t protocol _ _ (.ok _)) =>
    if pl.windows = true then .skip else .pair (pl.domainOf .unix) t protocol
  | .library (.createUnixPair _ _ _ _ (.error _)) => .skip
  | .library (.move y _) => .move y
  | .library (.moveAssign x y) => .moveAssign x y
  | .library (.swap x y _) => .swap x y
  | .library (.socketFD x true) => .release x
  | .library (.socketFD x false) => .use x
  | .library (.destroy x _) => .destroy x
  | .library (.member x _) => .use x
  | .close _ => .skip

/-- Connections are accepted by objects that own their descriptor. -/
def AcceptsOwn (s : World) : ProgramOp → Prop
  | .library (.accept x _) => ∀ v, s.socks.get x = some v → v.m_validFD = true
  | _ => True

def UsesOwn (s : World) (op : ProgramOp) : Prop := ReleasesOwn s op ∧ AcceptsOwn s op

def usesOwn (s : World) : ProgramOp → Bool
  | .library (.socketFD x true) =>
    (s.socks.get x).all fun v => v.m_validFD || s.kernel.lookup v.m_sockFD == none
  | .library (.accept x _) => (s.socks.get x).all Socket.m_validFD
  | _ => true

lemma usesOwn_iff {s : World} {op : ProgramOp} : usesOwn s op = true ↔ UsesOwn s op := by
  unfold usesOwn UsesOwn
  split
  · simp [ReleasesOwn, AcceptsOwn, Option.all_eq_true]
  · simp [ReleasesOwn, AcceptsOwn, Option.all_eq_true]
  · next hrelease haccept =>
    refine iff_of_true rfl ⟨?_, ?_⟩
    · unfold ReleasesOwn
      split
      · next x => exact absurd rfl (hrelease x)
      · trivial
    · unfold AcceptsOwn
      split
      · next x answer => exact absurd rfl (haccept x answer)
      · trivial

instance (s : World) (op : ProgramOp) : Decidable (UsesOwn s op) :=
  decidable_of_iff _ usesOwn_iff

/-! ### Finding descriptors -/

namespace Kernel

variable {k k' : Kernel} {d e : Descriptor} {i : Nat}

lemma lookup_push (h : k'.descs = k.descs.push e) (n : Int) :
    k'.lookup n = (k.lookup n).or
      (if (e.isOpen && e.number == n) = true then some k.descs.next else none) := by
  unfold lookup
  rw [h, Store.find_push]

lemma lookup_put (hd : k.descs.get i = some d) (h : k'.descs = k.descs.put i e) {n : Int}
    (hp : (e.isOpen && e.number == n) = (d.isOpen && d.number == n)) :
    k'.lookup n = k.lookup n := by
  unfold lookup
  rw [h]
  exact Store.find_put hd hp

end Kernel

namespace Socket

variable {k k' : Kernel} {v : Socket}

lemma handle_of_invalid (h : v.m_validFD = false) (k : Kernel) : v.handle k = none := by
  simp [handle, h]

lemma handle_congr (h : v.m_validFD = true → k'.lookup v.m_sockFD = k.lookup v.m_sockFD) :
    v.handle k' = v.handle k := by
  unfold handle
  split
  · next hv => rw [h hv]
  · rfl

end Socket

namespace World

variable {s t : World} {x y : Nat}

lemma object_of_get {v : Socket} (hx : s.socks.get x = some v) :
    s.handles.object x = some (v.handle s.kernel) := congrArg (Option.map _) hx

/-- An owner holds a descriptor. -/
lemma handle_of_valid (h : Linear s) {v : Socket} (hx : s.socks.get x = some v)
    (hv : v.m_validFD = true) :
    ∃ i d, s.kernel.lookup v.m_sockFD = some i ∧ s.kernel.descs.get i = some d ∧
      d.isOpen = true ∧ d.number = v.m_sockFD ∧ d.handed = 0 ∧ d.closes = 0 ∧
      v.handle s.kernel = some ⟨i, v.m_domain, v.m_type, v.m_protocol⟩ := by
  have howned : Owned s.socks v.m_sockFD := ⟨x, v, hx, hv, rfl⟩
  obtain ⟨i, d, hl, hd, hopen, hnum⟩ := h.lookup howned
  have hhandle : v.handle s.kernel = some ⟨i, v.m_domain, v.m_type, v.m_protocol⟩ := by
    rw [Socket.handle, if_pos hv, hl]
    rfl
  refine ⟨i, d, hl, hd, hopen, hnum, ?_, h.closes_of_open hd hopen, hhandle⟩
  cases h.fate i d hd with
  | owned _ _ hh _ => exact hh
  | handedOver hn _ _ => exact absurd (hnum ▸ howned) (hn hopen)
  | closed hclosed _ _ =>
    rw [hopen] at hclosed
    cases hclosed

lemma handles_eq {t' : Handles} (hnext : t.socks.next = t'.next)
    (hobject : ∀ x, (t.socks.get x).map (Socket.handle t.kernel) = t'.object x)
    (hdescs : t.kernel.descs.next = t'.descs)
    (hcustody : ∀ i, (t.kernel.descs.get i).map Descriptor.custody = t'.custody i) :
    t.handles = t' :=
  Handles.ext hnext (funext hobject) hdescs (funext hcustody)

/-! ### What one step does to them -/

/-- The numbers in use are found. -/
def Found (s : World) : Prop :=
  ∀ x v, s.socks.get x = some v → v.m_validFD = true → ∃ i, s.kernel.lookup v.m_sockFD = some i

/-- They are found as before. -/
def Finds (s t : World) : Prop :=
  ∀ x v, s.socks.get x = some v → v.m_validFD = true →
    t.kernel.lookup v.m_sockFD = s.kernel.lookup v.m_sockFD

lemma found_of_linear (h : Linear s) : s.Found := by
  intro x v hx hv
  obtain ⟨i, -, hl, -⟩ := h.lookup ⟨x, v, hx, hv, rfl⟩
  exact ⟨i, hl⟩

lemma finds_of_same (h : t.kernel.descs = s.kernel.descs) : s.Finds t :=
  fun _ _ _ _ => Kernel.lookup_congr h

lemma Finds.handle (h : s.Finds t) {v : Socket} (hx : s.socks.get x = some v) :
    v.handle t.kernel = v.handle s.kernel :=
  Socket.handle_congr (h x v hx)

lemma Finds.object (h : s.Finds t) (x : Nat) :
    (s.socks.get x).map (Socket.handle t.kernel) = s.handles.object x := by
  change _ = (s.socks.get x).map (Socket.handle s.kernel)
  cases hx : s.socks.get x with
  | none => rfl
  | some v => exact congrArg some (h.handle hx)

/-- A descriptor is replaced by one that the objects find under the same numbers. -/
lemma finds_of_put {i : Nat} {d e : Descriptor} (hd : s.kernel.descs.get i = some d)
    (ht : t.kernel.descs = s.kernel.descs.put i e) (hnum : e.number = d.number)
    (hopen : e.isOpen = d.isOpen ∨ ¬Owned s.socks d.number) : s.Finds t := by
  intro x v hx hv
  apply Kernel.lookup_put hd ht
  rw [hnum]
  rcases hopen with hopen | hno
  · rw [hopen]
  · have hne : d.number ≠ v.m_sockFD := by
      intro heq
      exact hno ⟨x, v, hx, hv, heq.symm⟩
    rw [beq_false_of_ne hne, Bool.and_false, Bool.and_false]

lemma handles_of_kept (hsocks : t.socks = s.socks) (hfinds : s.Finds t)
    (hdescs : t.kernel.descs.next = s.kernel.descs.next)
    (hcustody : ∀ i, (t.kernel.descs.get i).map Descriptor.custody =
      (s.kernel.descs.get i).map Descriptor.custody) : t.handles = s.handles := by
  refine handles_eq ?_ (fun x => ?_) hdescs hcustody
  · rw [hsocks]
    rfl
  · rw [hsocks]
    exact hfinds.object x

lemma handles_of_same (hsocks : t.socks = s.socks) (hdescs : t.kernel.descs = s.kernel.descs) :
    t.handles = s.handles :=
  handles_of_kept hsocks (finds_of_same hdescs) (congrArg Store.next hdescs)
    fun i => by rw [hdescs]

/-- A new object owns a new descriptor. -/
structure Made (x : Nat) (v : Socket) (s t : World) : Prop where
  valid : v.m_validFD = true
  free : s.kernel.lookup v.m_sockFD = none
  next : t.socks.next = x + 1
  socks : ∀ z, t.socks.get z = if z = x then some v else s.socks.get z
  descs : ∃ localPath,
    t.kernel.descs = s.kernel.descs.push { number := v.m_sockFD, localPath }

namespace Made

variable {v : Socket}

lemma lookup (hm : Made x v s t) (n : Int) :
    t.kernel.lookup n = (s.kernel.lookup n).or
      (if v.m_sockFD = n then some s.kernel.descs.next else none) := by
  obtain ⟨localPath, hdescs⟩ := hm.descs
  rw [Kernel.lookup_push hdescs]
  simp

lemma lookup_self (hm : Made x v s t) :
    t.kernel.lookup v.m_sockFD = some s.kernel.descs.next := by
  rw [hm.lookup, hm.free, if_pos rfl, Option.none_or]

lemma finds (hm : Made x v s t) (h : s.Found) : s.Finds t := by
  intro y w hy hw
  obtain ⟨i, hl⟩ := h y w hy hw
  rw [hm.lookup, hl, Option.some_or]

lemma found (hm : Made x v s t) (h : s.Found) : t.Found := by
  intro y w hy hw
  rw [hm.socks] at hy
  split at hy
  · cases hy
    exact ⟨_, hm.lookup_self⟩
  · rw [hm.finds h y w hy hw]
    exact h y w hy hw

lemma handles (hm : Made x v s t) (h : s.Found) :
    t.handles = s.handles.hold x v.m_domain v.m_type v.m_protocol := by
  obtain ⟨localPath, hdescs⟩ := hm.descs
  refine handles_eq hm.next (fun z => ?_) ?_ (fun i => ?_)
  · rw [hm.socks, Handles.object_hold]
    split
    · simp [Socket.handle, hm.valid, hm.lookup_self, World.handles]
    · exact (hm.finds h).object z
  · rw [hdescs, Store.next_push]
    rfl
  · rw [hdescs, Store.get_push, Handles.custody_hold]
    change _ = if i = s.kernel.descs.next then _ else _
    split <;> rfl

end Made

/-- An object parts with its descriptor. -/
lemma handles_of_part (h : Linear s) {v : Socket} {i : Nat} {d e : Descriptor}
    (hx : s.socks.get x = some v) (hv : v.m_validFD = true)
    (hl : s.kernel.lookup v.m_sockFD = some i) (hd : s.kernel.descs.get i = some d)
    (hnext : t.socks.next = s.socks.next)
    (hsocks : ∀ z, z ≠ x → t.socks.get z = s.socks.get z)
    (hdescs : t.kernel.descs = s.kernel.descs.put i e) (hnum : e.number = d.number)
    (domain : Nat) (type protocol : Int) :
    t.handles = s.handles.part x ⟨i, domain, type, protocol⟩
      ((t.socks.get x).map (Socket.handle t.kernel)) e.custody := by
  obtain ⟨d', hd', -, hfd⟩ := Kernel.exists_of_lookup hl
  rw [hd] at hd'
  cases hd'
  refine handles_eq hnext (fun z => ?_) ?_ (fun j => ?_)
  · rw [Handles.object_part]
    split
    · next hzx => rw [hzx]
    · next hzx =>
      rw [hsocks z hzx]
      change _ = (s.socks.get z).map (Socket.handle s.kernel)
      cases hz : s.socks.get z with
      | none => rfl
      | some w =>
        refine congrArg some (Socket.handle_congr fun hw => ?_)
        have hne : d.number ≠ w.m_sockFD := by
          intro heq
          exact hzx (h.sole z x w.m_sockFD ⟨w, hz, hw, rfl⟩ ⟨v, hx, hv, hfd.symm.trans heq⟩)
        apply Kernel.lookup_put hd hdescs
        rw [hnum, beq_false_of_ne hne, Bool.and_false, Bool.and_false]
  · rw [hdescs, Store.next_put]
    rfl
  · rw [hdescs, Store.get_put hd, Handles.custody_part]
    change _ = if j = i then _ else _
    split <;> rfl

/-- Objects exchange what they have. -/
lemma handles_of_moved {y : Nat} {b j : Socket} (hy : s.socks.get y = some b)
    (hj : j.m_validFD = false) (hsocks : t.socks = (s.socks.push b).put y j)
    (hdescs : t.kernel.descs = s.kernel.descs) :
    HandleOp.step s.handles (.move y) = some t.handles := by
  have hfinds := finds_of_same hdescs
  rw [HandleOp.step, object_of_get hy, Option.map_some, Option.some.injEq]
  symm
  refine handles_eq ?_ (fun z => ?_) (congrArg Store.next hdescs) (fun i => by rw [hdescs]; rfl)
  · rw [hsocks, Store.next_put, Store.next_push]
    rfl
  · rw [hsocks, Store.get_put (Store.get_push_of_some hy b), Store.get_push]
    change _ = Function.update (Function.update s.handles.object s.socks.next _) y _ z
    rw [Function.update_apply, Function.update_apply]
    split
    · exact congrArg some (Socket.handle_of_invalid hj _)
    · split
      · exact congrArg some (hfinds.handle hy)
      · exact hfinds.object z

lemma handles_of_exchange {a b : Socket} (hx : s.socks.get x = some a)
    (hy : s.socks.get y = some b)
    (hsocks : ∀ z, t.socks.get z = ((s.socks.put x b).put y a).get z)
    (hdescs : t.kernel.descs = s.kernel.descs) :
    t.handles = { s.handles.exchange x y (a.handle s.kernel) (b.handle s.kernel) with
      next := t.socks.next } := by
  have hfinds := finds_of_same hdescs
  obtain ⟨c, hc⟩ := Store.exists_get_put hx hy b
  refine handles_eq rfl (fun z => ?_) (congrArg Store.next hdescs) (fun i => by rw [hdescs]; rfl)
  rw [hsocks, Store.get_put hc, Store.get_put hx]
  change _ = Function.update (Function.update s.handles.object x _) y _ z
  rw [Function.update_apply, Function.update_apply]
  split
  · exact congrArg some (hfinds.handle hx)
  · split
    · exact congrArg some (hfinds.handle hy)
    · exact hfinds.object z

lemma handles_of_erase (hsocks : t.socks = s.socks.erase x)
    (hdescs : t.kernel.descs = s.kernel.descs) :
    t.handles = { s.handles with object := Function.update s.handles.object x none } := by
  have hfinds := finds_of_same hdescs
  refine handles_eq ?_ (fun z => ?_) (congrArg Store.next hdescs) (fun i => by rw [hdescs]; rfl)
  · rw [hsocks, Store.next_erase]
    rfl
  · rw [hsocks, Store.get_erase]
    change _ = Function.update s.handles.object x none z
    rw [Function.update_apply]
    split
    · rfl
    · exact hfinds.object z

/-! ### How many objects an operation makes -/

lemma swapMembers_next (s : World) (x y : Nat) :
    Prog.wp (swapMembers x y) (fun _ t => t.socks.next = s.socks.next) (fun _ _ => False)
      (fun _ => True) s := by
  apply wp_of_this
  intro a hx
  cases hy : s.socks.get y with
  | none =>
    rw [Prog.wp_bind, wp_this hx]
    simp [this, hy]
  | some b =>
    exact (wp_swapMembers hx hy).mpr (by rw [Store.next_put, Store.next_put])

lemma destroy_next (s : World) (x : Nat) (name : NameAnswer) :
    Prog.wp (destroy pl x name) (fun _ t => t.socks.next = s.socks.next) (fun _ _ => False)
      (fun _ => True) s := by
  cases hx : s.socks.get x with
  | none => simp [destroy, noexcept, this, hx]
  | some v =>
    cases hv : v.m_validFD with
    | false => exact (wp_destroy_invalid hx hv).mpr (Store.next_erase _ _)
    | true =>
      refine Prog.wp_mono (destroy_closed pl hx hv name) (fun _ t hc => ?_) (fun _ _ h => h)
        (fun _ h => h)
      rw [hc.socks, Store.next_erase]

/-- The temporary of `std::swap` has taken a place. -/
lemma swap_next (s : World) (x y : Nat) (junk : Socket) :
    Prog.wp (swap pl x y junk) (fun _ t => t.socks.next = s.socks.next + 1) (fun _ _ => False)
      (fun _ => True) s := by
  apply wp_of_this
  intro b hy
  rw [Prog.wp_bind, wp_this hy, Prog.wp_bind]
  apply wp_of_this
  intro a hx
  rw [← moveConstruct, wp_moveConstruct hx, Prog.wp_bind]
  refine Prog.wp_mono (swapMembers_next _ x y) (fun _ u hu => ?_) (fun _ _ h => h.elim)
    (fun _ h => h)
  rw [Prog.wp_bind]
  refine Prog.wp_mono (swapMembers_next u y _) (fun _ w hw => ?_) (fun _ _ h => h.elim)
    (fun _ h => h)
  refine Prog.wp_mono (destroy_next w _ _) (fun _ r hr => ?_) (fun _ _ h => h) (fun _ h => h)
  rw [hr, hw, hu, Store.next_put, Store.next_push]

/-! ### Answers of the kernel -/

variable (pl) in
lemma create_descs (hs : ¬s.addr.lib.StartFails pl) (d : Nat) (t protocol fd : Int) :
    Prog.wp (create pl d t protocol (.ok fd))
      (fun _ u => ∃ e, u.kernel.descs = s.kernel.descs.push e)
      (fun _ u => ∃ e, u.kernel.descs = s.kernel.descs.push e) (fun _ => True)
      (SocketOp.start s) := by
  rw [create, Prog.wp_bind, wp_enter]
  refine ⟨fun hfails => absurd hfails hs, fun _ => ?_⟩
  rw [Prog.wp_bind, wp_sysCall, Prog.wp_bind, wp_check]
  refine ⟨fun n _ => ?_, fun errno herr => by cases herr⟩
  rw [Prog.wp_bind, wp_kernelStep]
  refine ⟨fun k hk => ?_, fun _ => trivial⟩
  obtain ⟨-, rfl⟩ := Kernel.allocate_eq_some hk
  exact ⟨_, rfl⟩

lemma ne_push (descs : Store Descriptor) (d : Descriptor) : descs ≠ descs.push d := by
  intro heq
  have hnext := congrArg Store.next heq
  rw [Store.next_push] at hnext
  omega

lemma ne_push_push (descs : Store Descriptor) (d e : Descriptor) :
    descs ≠ (descs.push d).push e := by
  intro heq
  have hnext := congrArg Store.next heq
  rw [Store.next_push, Store.next_push] at hnext
  omega

end World

/-! ### Each operation -/

namespace SocketOp

variable {s t : World} {x y : Nat}

lemma create_handles (hw : pl.LibraryWorks) (h : Linear s) {d : Nat} {ty protocol fd : Int}
    (hs : step pl s (.create d ty protocol (.ok fd)) = some t) :
    t.handles = s.handles.hold s.handles.next d ty protocol := by
  have hwp := World.create_descs pl (s := s) (hw.not_startFails _) d ty protocol fd
  obtain ⟨e, hpush⟩ := Prog.resume_of_wp (P := fun u => ∃ e, u.kernel.descs = s.kernel.descs.push e)
    (F := fun _ => True) (World.wp_discard.mpr hwp) hs
  cases step_effect hs with
  | created hfree hlib =>
    refine World.Made.handles (v := ⟨true, fd, d, ty, protocol⟩) ?_ (World.found_of_linear h)
    exact ⟨rfl, hfree, Store.next_push _ _, Store.get_push _ _, none, rfl⟩
  | notCreated hl hcs => exact absurd hpush (World.ne_push _ _)
  | exchanged hop => rcases hop with hop | ⟨_, hop⟩ <;> cases hop

lemma accept_handles (h : Linear s) {peer : Int} {v : Socket} (hx : s.socks.get x = some v)
    (hs : step pl s (.accept x (.ok peer)) = some t) :
    t.handles = s.handles.hold s.handles.next v.m_domain v.m_type v.m_protocol := by
  obtain ⟨e, hpush⟩ := Prog.resume_of_wp (P := fun u => ∃ e, u.kernel.descs = s.kernel.descs.push e)
    (F := fun _ => True) (World.wp_discard.mpr (World.accept_descs s x peer)) hs
  cases step_effect hs with
  | @accepted x v' i d peer hx' hi hd hfree hlib =>
    obtain rfl : v = v' := Option.some.inj (hx.symm.trans hx')
    refine World.Made.handles (v := ⟨true, peer, v.m_domain, v.m_type, v.m_protocol⟩) ?_
      (World.found_of_linear h)
    exact ⟨rfl, hfree, Store.next_push _ _, Store.get_push _ _, d.localPath, rfl⟩
  | lost hx' hi hd hfree hlib hl =>
    obtain ⟨d', hd', hopen, -⟩ := Kernel.exists_of_lookup hi
    exact absurd hlib (h.not_startFails hd' hopen)
  | notAccepted hx' => exact absurd hpush (World.ne_push _ _)
  | exchanged hop => rcases hop with hop | ⟨_, hop⟩ <;> cases hop

/-- The first object of a pair is made, then the second. -/
lemma paired_handles (h : s.Found) {ty protocol fd0 fd1 : Int} {j j' : Socket} {d : Nat}
    (hfree0 : s.kernel.lookup fd0 = none) (hfree1 : s.kernel.lookup fd1 = none) (hne : fd0 ≠ fd1)
    (hsocks : t.socks = pairUp s.socks ⟨true, fd0, d, ty, protocol⟩ ⟨true, fd1, d, ty, protocol⟩
      j j')
    (hdescs : t.kernel.descs = (s.kernel.descs.push { number := fd0 }).push { number := fd1 }) :
    t.handles = (s.handles.hold (s.handles.next + 2) d ty protocol).hold (s.handles.next + 3) d ty
      protocol := by
  let a : Socket := ⟨true, fd0, d, ty, protocol⟩
  let two : Store Socket := (((s.socks.push a).erase s.socks.next).push a).erase (s.socks.next + 1)
  let u : World := ⟨s.addr, two.push a, ⟨s.kernel.descs.push { number := fd0 }, [], []⟩⟩
  have hnext : two.next = s.socks.next + 2 := by simp [two]
  have htwo : ∀ z, two.get z = s.socks.get z := by
    intro z
    have herase := Store.get_erase_push ((s.socks.push a).erase s.socks.next) a z
    rw [Store.next_erase, Store.next_push] at herase
    exact herase.trans (Store.get_erase_push s.socks a z)
  have hfirst : World.Made (s.socks.next + 2) a s u := by
    refine ⟨rfl, hfree0, ?_, fun z => ?_, none, rfl⟩
    · rw [Store.next_push, hnext]
    · rw [Store.get_push, hnext, htwo]
  have hsecond : World.Made (s.socks.next + 3) ⟨true, fd1, d, ty, protocol⟩ u t := by
    refine ⟨rfl, lookup_push_none hfree1 hne, ?_, fun z => ?_, none, hdescs⟩
    · rw [hsocks]
      simp [pairUp]
    · rw [hsocks, get_pairUp, hfirst.socks]
      split
      · next hz => rw [if_neg (by omega)]
      · rfl
  rw [hsecond.handles (hfirst.found h), hfirst.handles h]
  rfl

lemma pair_handles (h : Linear s) {ty protocol fd0 fd1 : Int} {junk junk' : Socket}
    (hs : step pl s (.createUnixPair ty protocol junk junk' (.ok (fd0, fd1))) = some t) :
    if pl.windows = true then t.handles = s.handles
    else t.handles = (s.handles.hold (s.handles.next + 2) (pl.domainOf .unix) ty protocol).hold
      (s.handles.next + 3) (pl.domainOf .unix) ty protocol := by
  let P : World → Prop := fun u =>
    pl.windows = false ∧ (∃ d e, u.kernel.descs = (s.kernel.descs.push d).push e) ∨
    pl.windows = true ∧ u.kernel.descs = s.kernel.descs
  have hwp := World.createUnixPair_descs pl s ty protocol fd0 fd1 junk junk'
  have hP : P t := Prog.resume_of_wp (P := P) (F := fun _ => True)
    (World.wp_discard.mpr (Prog.wp_mono hwp (fun _ _ => Or.inl) (fun _ _ => Or.inr)
      (fun _ h => h))) hs
  cases step_effect hs with
  | paired hfree0 hfree1 hne hcs =>
    rcases hP with ⟨hw, -⟩ | ⟨-, hsame⟩
    · rw [if_neg (by simp [hw])]
      exact paired_handles (World.found_of_linear h) hfree0 hfree1 hne rfl rfl
    · exact absurd hsame.symm (World.ne_push_push _ _ _)
  | notPaired hcs =>
    rcases hP with ⟨-, d, e, hpush⟩ | ⟨hw, -⟩
    · exact absurd hpush (World.ne_push_push _ _ _)
    · rw [if_pos hw]
      exact World.handles_of_same rfl rfl
  | exchanged hop => rcases hop with hop | ⟨_, hop⟩ <;> cases hop

lemma release_handles (h : Linear s) (hg : ReleasesOwn s (.library (.socketFD x true)))
    (hs : step pl s (.socketFD x true) = some t) :
    HandleOp.step s.handles (.release x) = some t.handles := by
  cases step_effect hs with
  | exchanged hop => rcases hop with hop | ⟨_, hop⟩ <;> cases hop
  | @released x v hx =>
    let w : Socket := { v with m_validFD := false }
    let u : World := ⟨s.addr, s.socks.put x w, (start s).kernel.hand v.m_sockFD⟩
    have hput := Store.get_put hx w
    rw [HandleOp.step, World.object_of_get hx]
    cases hv : v.m_validFD with
    | true =>
      obtain ⟨i, d, hl, hd, -, -, hh, hc, hhandle⟩ := World.handle_of_valid h hx hv
      have hdescs : u.kernel.descs = s.kernel.descs.put i { d with handed := d.handed + 1 } :=
        (Kernel.descs_hand s.kernel [] v.m_sockFD).trans (Kernel.descs_hand_of_get hl hd)
      have hsocks : ∀ z, z ≠ x → u.socks.get z = s.socks.get z := fun z hz =>
        (hput z).trans (if_neg hz)
      have hself : u.socks.get x = some w := (hput x).trans (if_pos rfl)
      have hpart : u.handles = _ := World.handles_of_part h hx hv hl hd (Store.next_put _ _ _)
        hsocks hdescs rfl v.m_domain v.m_type v.m_protocol
      rw [hself, Option.map_some, Socket.handle_of_invalid rfl] at hpart
      rw [hhandle]
      simp only [Option.some.injEq]
      refine Eq.trans ?_ hpart.symm
      simp [Descriptor.custody, hc, hh]
    | false =>
      have hnone := (hg v hx).resolve_left (by simp [hv])
      have hsame : u.kernel.descs = s.kernel.descs := by
        refine (Kernel.descs_hand s.kernel [] v.m_sockFD).trans ?_
        rw [Kernel.hand_of_lookup_none hnone]
      have hw : s.socks.put x w = s.socks := by
        have heq : w = v := by rw [show w = { v with m_validFD := false } from rfl, ← hv]
        rw [heq, Store.put_self hx]
      rw [Socket.handle_of_invalid hv]
      exact congrArg some (World.handles_of_same (t := u) hw hsame).symm

lemma use_handles {v : Socket} (hx : s.socks.get x = some v) (h : t.handles = s.handles) :
    HandleOp.step s.handles (.use x) = some t.handles := by
  rw [HandleOp.step, World.object_of_get hx, h]
  rfl

lemma exists_of_accept {answer : Except Int Int} (hs : step pl s (.accept x answer) = some t) :
    ∃ v, s.socks.get x = some v := by
  cases step_effect hs with
  | accepted hx => exact ⟨_, hx⟩
  | lost hx => exact ⟨_, hx⟩
  | notAccepted hx => exact ⟨_, hx⟩
  | exchanged hop => rcases hop with hop | ⟨_, hop⟩ <;> cases hop

lemma exists_of_socketFD {takeOwnership : Bool}
    (hs : step pl s (.socketFD x takeOwnership) = some t) : ∃ v, s.socks.get x = some v := by
  cases hx : s.socks.get x with
  | some v => exact ⟨v, rfl⟩
  | none =>
    have hdead : exec pl (.socketFD x takeOwnership) (start s) = .fault .danglingPointer :=
      Prog.bind_of_fault (Prog.bind_of_fault (World.this_dead hx))
    rw [step, hdead] at hs
    cases hs

lemma moveAssign_handles (hs : step pl s (.moveAssign x y) = some t) :
    HandleOp.step s.handles (.moveAssign x y) = some t.handles := by
  have hnext : t.socks.next = s.socks.next :=
    Prog.resume_of_wp (P := fun t => t.socks.next = s.socks.next) (F := fun _ => True)
      (Prog.wp_mono_throw (World.swapMembers_next (start s) x y) fun _ _ h => h.elim) hs
  cases step_effect hs with
  | @exchanged _ x' y' a b socks hop hx hy hsocks =>
    rcases hop with hop | ⟨_, hop⟩
    · cases hop
      rw [HandleOp.step, World.object_of_get hx, World.object_of_get hy]
      refine congrArg some (Eq.symm ?_)
      refine Eq.trans (World.handles_of_exchange hx hy hsocks rfl) ?_
      rw [hnext]
      rfl
    · cases hop

lemma swap_handles {junk : Socket} (hs : step pl s (.swap x y junk) = some t) :
    HandleOp.step s.handles (.swap x y) = some t.handles := by
  have hnext : t.socks.next = s.socks.next + 1 :=
    Prog.resume_of_wp (P := fun t => t.socks.next = s.socks.next + 1) (F := fun _ => True)
      (Prog.wp_mono_throw (World.swap_next (start s) x y junk) fun _ _ h => h.elim) hs
  cases step_effect hs with
  | @exchanged _ x' y' a b socks hop hx hy hsocks =>
    rcases hop with hop | ⟨_, hop⟩
    · cases hop
    · cases hop
      rw [HandleOp.step, World.object_of_get hx, World.object_of_get hy]
      refine congrArg some (Eq.symm ?_)
      refine Eq.trans (World.handles_of_exchange hx hy hsocks rfl) ?_
      rw [hnext]
      rfl

/-- Binding a descriptor does not change who holds it. -/
lemma member_handles {v : Socket} (h : Served v.m_sockFD (start s) t) : t.handles = s.handles := by
  rcases h.kernel with ⟨hdescs, -⟩ | ⟨i, d, p, -, hd, -, -, hdescs, -⟩
  · exact World.handles_of_same h.socks hdescs
  · have hd : s.kernel.descs.get i = some d := hd
    have hfinds := World.finds_of_put (s := s) (t := t) hd hdescs rfl (Or.inl rfl)
    refine World.handles_of_kept h.socks hfinds ?_ fun j => ?_
    · rw [hdescs, Store.next_put]
      rfl
    · rw [hdescs]
      refine (congrArg _ (Store.get_put hd _ j)).trans ?_
      split
      · next hj =>
        rw [hj, hd]
        rfl
      · rfl

lemma destroy_handles (h : Linear s) {name : NameAnswer}
    (hs : step pl s (.destroy x name) = some t) :
    HandleOp.step s.handles (.destroy x) = some t.handles := by
  cases step_effect hs with
  | exchanged hop => rcases hop with hop | ⟨_, hop⟩ <;> cases hop
  | @forgotten x v name hx hv =>
    rw [HandleOp.step, World.object_of_get hx, Socket.handle_of_invalid hv]
    refine congrArg some (Eq.symm ?_)
    exact World.handles_of_erase rfl rfl
  | @closed x v name t hx hv hc =>
    obtain ⟨i, d, hl, hd, -, -, hh, hcl, hhandle⟩ := World.handle_of_valid h hx hv
    have hsocks : t.socks = s.socks.erase x := hc.socks
    have hdescs := hc.descs_eq.trans (Kernel.descs_close_of_get hl hd)
    have hother : ∀ z, z ≠ x → t.socks.get z = s.socks.get z := by
      intro z hz
      rw [hsocks, Store.get_erase, if_neg hz]
    have hpart := World.handles_of_part h hx hv hl hd (by rw [hsocks, Store.next_erase]) hother
      hdescs rfl v.m_domain v.m_type v.m_protocol
    rw [HandleOp.step, World.object_of_get hx, hhandle, hpart, hsocks, Store.get_erase_self]
    simp [Descriptor.custody]

end SocketOp

/-- The caller closes what nobody owns any more. -/
lemma ProgramOp.close_handles (h : Linear s) {n : Int} (hs : step pl s (.close n) = some t) :
    t.handles = s.handles := by
  obtain ⟨k, hk, rfl⟩ := Option.map_eq_some_iff.mp hs
  obtain ⟨i, hl, hk⟩ := Option.bind_eq_some_iff.mp hk
  obtain ⟨d, hd, hk⟩ := Option.bind_eq_some_iff.mp hk
  split at hk
  · next hh =>
    cases hk
    obtain ⟨d', hd', hopen, -⟩ := Kernel.exists_of_lookup hl
    rw [hd] at hd'
    cases hd'
    have hno : ¬Owned s.socks d.number := by
      cases h.fate i d hd with
      | owned _ _ hh' _ => omega
      | handedOver hn _ _ => exact hn hopen
      | closed _ hh' _ => omega
    have hput : s.kernel.descs.update i (fun d => { d with isOpen := false }) =
        s.kernel.descs.put i { d with isOpen := false } := by
      simp [Store.update, hd]
    refine World.handles_of_kept rfl (World.finds_of_put hd hput rfl (Or.inr hno)) ?_ fun j => ?_
    · exact (congrArg Store.next hput).trans (Store.next_put _ _ _)
    · change ((s.kernel.descs.update i _).get j).map _ = _
      rw [hput, Store.get_put hd]
      split
      · next hj =>
        rw [hj, hd]
        rfl
      · rfl
  · cases hk

/-- Every step means what is said of it. -/
lemma ProgramOp.step_handles (hw : pl.LibraryWorks) (h : Linear s) {op : ProgramOp}
    (hg : ReleasesOwn s op) (ha : AcceptsOwn s op) (hs : op.step pl s = some t) :
    HandleOp.step s.handles (op.meaning pl) = some t.handles := by
  cases op with
  | close n => exact congrArg some (close_handles h hs).symm
  | library op =>
    cases op with
    | create d ty protocol answer =>
      cases answer with
      | error errno =>
        cases step_effect hs with
        | notCreated hl hcs => exact congrArg some (World.handles_of_same rfl rfl).symm
        | exchanged hop => rcases hop with hop | ⟨_, hop⟩ <;> cases hop
      | ok fd => exact congrArg some (SocketOp.create_handles hw h hs).symm
    | accept x answer =>
      cases answer with
      | error errno =>
        cases step_effect hs with
        | notAccepted hx => exact SocketOp.use_handles hx (World.handles_of_same rfl rfl)
        | exchanged hop => rcases hop with hop | ⟨_, hop⟩ <;> cases hop
      | ok peer =>
        obtain ⟨v, hx⟩ := SocketOp.exists_of_accept hs
        obtain ⟨i, d, -, -, -, -, -, -, hhandle⟩ := World.handle_of_valid h hx (ha v hx)
        rw [meaning, HandleOp.step, World.object_of_get hx, hhandle,
          SocketOp.accept_handles h hx hs]
    | createUnixPair ty protocol junk junk' answer =>
      cases answer with
      | error errno =>
        cases step_effect hs with
        | notPaired hcs => exact congrArg some (World.handles_of_same rfl rfl).symm
        | exchanged hop => rcases hop with hop | ⟨_, hop⟩ <;> cases hop
      | ok fds =>
        have hpair := SocketOp.pair_handles h hs
        rw [meaning]
        split at hpair
        · next hwin =>
          rw [if_pos hwin, hpair]
          rfl
        · next hwin =>
          rw [if_neg hwin, hpair]
          rfl
    | move y junk =>
      cases step_effect hs with
      | moved hy => exact World.handles_of_moved hy rfl rfl rfl
      | exchanged hop => rcases hop with hop | ⟨_, hop⟩ <;> cases hop
    | moveAssign x y => exact SocketOp.moveAssign_handles hs
    | swap x y junk => exact SocketOp.swap_handles hs
    | socketFD x takeOwnership =>
      obtain ⟨v, hx⟩ := SocketOp.exists_of_socketFD hs
      cases takeOwnership with
      | true => exact SocketOp.release_handles h hg hs
      | false =>
        cases step_effect hs with
        | peeked => exact SocketOp.use_handles hx (World.handles_of_same rfl rfl)
        | exchanged hop => rcases hop with hop | ⟨_, hop⟩ <;> cases hop
    | destroy x name => exact SocketOp.destroy_handles h hs
    | member x m =>
      cases step_effect hs with
      | served hx hserved => exact SocketOp.use_handles hx (SocketOp.member_handles hserved)
      | exchanged hop => rcases hop with hop | ⟨_, hop⟩ <;> cases hop

/-! ### Runs -/

lemma handles_simulate (hw : pl.LibraryWorks) :
    Simulates (ProgramOp.step pl) HandleOp.step (ProgramOp.meaning pl)
      (fun s t => Linear s ∧ s.handles = t) UsesOwn := by
  rintro s _ op s' ⟨h, rfl⟩ ⟨hg, ha⟩ hs
  exact ⟨_, ProgramOp.step_handles hw h hg ha hs, h.step hg hs, rfl⟩

lemma handles_initial (autoInitialize : Bool) (files : List (List UInt8)) :
    (World.initial autoInitialize files).handles = Handles.empty := rfl

/-- What a program can ask of its objects. -/
structure Shows (s : World) (t : Handles) : Prop where
  live : ∀ x, s.socks.get x = none ↔ t.object x = none
  owns : ∀ x v, s.socks.get x = some v →
    (v.m_validFD = true ↔ ∃ g, t.object x = some (some g))
  holds : ∀ x g, t.object x = some (some g) → ∃ v, s.socks.get x = some v ∧
    v.m_domain = g.domain ∧ v.m_type = g.type ∧ v.m_protocol = g.protocol ∧
    s.descriptor x = some g.desc ∧ s.kernel.isOpen g.desc = true
  compares : ∀ x y g h, t.object x = some (some g) → t.object y = some (some h) →
    World.equals x y s = .ok (decide (x = y)) s ∧
    World.notEquals x y s = .ok (decide (x ≠ y)) s

namespace World

lemma equals_eq {s : World} {x y : Nat} {a b : Socket} (hx : s.socks.get x = some a)
    (hy : s.socks.get y = some b) :
    equals x y s = .ok (decide (a.m_sockFD = b.m_sockFD)) s ∧
      notEquals x y s = .ok (decide (a.m_sockFD ≠ b.m_sockFD)) s := by
  constructor
  · refine (Prog.bind_of_ok (this_eq hx)).trans ?_
    exact Prog.bind_of_ok (this_eq hy)
  · refine (Prog.bind_of_ok (this_eq hx)).trans ?_
    exact Prog.bind_of_ok (this_eq hy)

lemma valid_of_object {s : World} {x : Nat} {g : Handle}
    (hg : s.handles.object x = some (some g)) :
    ∃ v, s.socks.get x = some v ∧ v.m_validFD = true ∧ v.handle s.kernel = some g := by
  obtain ⟨v, hx, hhandle⟩ := Option.map_eq_some_iff.mp hg
  refine ⟨v, hx, ?_, hhandle⟩
  by_contra hv
  rw [Socket.handle_of_invalid (Bool.eq_false_iff.mpr hv)] at hhandle
  cases hhandle

end World

lemma Linear.shows (h : Linear s) : Shows s s.handles where
  live x := by simp [World.handles]
  owns x v hx := by
    constructor
    · intro hv
      obtain ⟨i, d, -, -, -, -, -, -, hhandle⟩ := World.handle_of_valid h hx hv
      exact ⟨_, (World.object_of_get hx).trans (congrArg some hhandle)⟩
    · rintro ⟨g, hg⟩
      obtain ⟨v', hx', hv, -⟩ := World.valid_of_object hg
      rw [hx] at hx'
      cases hx'
      exact hv
  holds x g hg := by
    obtain ⟨v, hx, hv, hhandle⟩ := World.valid_of_object hg
    obtain ⟨i, d, hl, hd, hopen, -, -, -, hhandle'⟩ := World.handle_of_valid h hx hv
    rw [hhandle'] at hhandle
    cases hhandle
    refine ⟨v, hx, rfl, rfl, rfl, ?_, ?_⟩
    · simp [World.descriptor, hx, hl]
    · simp [Kernel.isOpen, hd, hopen]
  compares x y g k hg hk := by
    obtain ⟨v, hx, hv, -⟩ := World.valid_of_object hg
    obtain ⟨w, hy, hw, -⟩ := World.valid_of_object hk
    have hiff : v.m_sockFD = w.m_sockFD ↔ x = y := by
      constructor
      · intro heq
        exact h.sole x y w.m_sockFD ⟨v, hx, hv, heq⟩ ⟨w, hy, hw, rfl⟩
      · rintro rfl
        rw [hx] at hy
        cases hy
        rfl
    have heq := World.equals_eq hx hy
    rw [decide_eq_decide.mpr hiff, decide_eq_decide.mpr (not_congr hiff)] at heq
    exact heq

/-- However a program makes, moves, exchanges and destroys its sockets, they are handles: what is
held, handed over and closed is what the operations say, and all its questions are answered so. -/
theorem sockets_are_handles (pl : Platform) (hw : pl.LibraryWorks) (autoInitialize : Bool)
    (files : List (List UInt8)) (ops : List ProgramOp) (s : World)
    (hg : Guarded (ProgramOp.step pl) UsesOwn (World.initial autoInitialize files) ops)
    (hr : run (ProgramOp.step pl) (World.initial autoInitialize files) ops = some s) :
    run HandleOp.step Handles.empty (ops.map (ProgramOp.meaning pl)) = some s.handles ∧
      s.handles.OneToOne ∧ Shows s s.handles := by
  have hinitial := Linear.initial autoInitialize files
  obtain ⟨t, ht, h, rfl⟩ := (handles_simulate hw).exists_run ⟨hinitial, rfl⟩ hg hr
  exact ⟨ht, Handles.oneToOne_of_run ht, h.shows⟩

/-- What `getsockname` says of a unix socket that has not been bound. -/
def unboundName : NameAnswer := .ok (⟨1 :: List.replicate 127 0, rfl⟩, 2)

/-- A number is handed over, closed, and given again. -/
def lendAndRenew (n m : Int) (junk : Socket) : List ProgramOp :=
  [.library (.create 1 1 0 (.ok n)), .library (.move 0 junk), .library (.accept 1 (.ok m)),
    .library (.socketFD 2 true), .close m, .library (.create 1 1 0 (.ok m)),
    .library (.swap 1 3 junk), .library (.destroy 3 unboundName)]

def renewed (n m : Int) (junk : Socket) : World :=
  (run (ProgramOp.step linuxHost) (World.initial true []) (lendAndRenew n m junk)).getD
    (World.initial true [])

theorem sockets_are_handles_linux :
    let s := renewed 3 4 ⟨true, 9, 2, 1, 0⟩
    run HandleOp.step Handles.empty
        ((lendAndRenew 3 4 ⟨true, 9, 2, 1, 0⟩).map (ProgramOp.meaning linuxHost)) =
      some s.handles ∧ s.handles.OneToOne ∧ Shows s s.handles :=
  sockets_are_handles linuxHost (libraryWorks_numericHost false false true) true []
    (lendAndRenew 3 4 ⟨true, 9, 2, 1, 0⟩) _ (by decide +kernel) (by decide +kernel)

/-- The numbers the kernel gives, what is left in an object that has been moved from, and the
answers of all other calls make no difference. -/
theorem numbers_never_show (pl : Platform) (hw : pl.LibraryWorks) (b c : Bool)
    (files files' : List (List UInt8)) (as bs : List ProgramOp) (s t : World)
    (hab : as.map (ProgramOp.meaning pl) = bs.map (ProgramOp.meaning pl))
    (hgs : Guarded (ProgramOp.step pl) UsesOwn (World.initial b files) as)
    (hgt : Guarded (ProgramOp.step pl) UsesOwn (World.initial c files') bs)
    (hrs : run (ProgramOp.step pl) (World.initial b files) as = some s)
    (hrt : run (ProgramOp.step pl) (World.initial c files') bs = some t) :
    s.handles = t.handles ∧ Shows s t.handles ∧ Shows t s.handles := by
  have hs := Linear.initial b files
  have ht := Linear.initial c files'
  obtain ⟨u, ⟨hs', hsu⟩, ht', htu⟩ :=
    (handles_simulate hw).run_agree ⟨hs, handles_initial b files⟩ ⟨ht, handles_initial c files'⟩
      hab hgs hgt hrs hrt
  have heq := hsu.trans htu.symm
  exact ⟨heq, heq ▸ hs'.shows, heq ▸ ht'.shows⟩

theorem numbers_never_show_linux :
    let s := renewed 3 4 ⟨true, 9, 2, 1, 0⟩
    let t := renewed 8 5 ⟨false, 8, 10, 2, 6⟩
    s.handles = t.handles ∧ Shows s t.handles ∧ Shows t s.handles :=
  numbers_never_show linuxHost (libraryWorks_numericHost false false true) true true [] []
    (lendAndRenew 3 4 ⟨true, 9, 2, 1, 0⟩) (lendAndRenew 8 5 ⟨false, 8, 10, 2, 6⟩) _ _ rfl
    (by decide +kernel) (by decide +kernel) (by decide +kernel) (by decide +kernel)

/-- An object that owns nothing may still be equal to another one. -/
example : (World.equals 1 2 (renewed 3 4 ⟨true, 9, 2, 1, 0⟩)).answer = .ok true () := rfl

end SockLib
