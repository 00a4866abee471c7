import SockLib.Foundation.Runs
import SockLib.Model.LibraryUse
import SockLib.Proofs.Effects

/-!
# The library is not torn down while it is in use

With automatic initialization there is a user of the library for every live address object,
every socket with a descriptor and every call of `initialize` that is still open.
-/

namespace SockLib

variable {pl : Platform}

def validWeight (v : Socket) : Nat := if v.m_validFD = true then 1 else 0

/-- The number of live sockets with `m_validFD`. -/
def validSockets (s : World) : Nat := s.socks.total validWeight

/-- There are at least as many users as live address objects and valid sockets, and
`deinitialize` has not been called without a user. -/
def UsersCovered (a : Application) : Prop :=
  a.world.addr.heap.count + validSockets a.world ≤ a.world.addr.lib.libraryUsers ∧
    a.world.addr.lib.underflows = 0

variable (pl) in
/-- When the operation cleans the library up, there is no live address object and no valid
socket. -/
def CleansUpUnused (a : Application) (op : LibraryOp) : Prop :=
  ∀ b, op.step pl a = some b →
    b.world.addr.lib.cleanups ≠ a.world.addr.lib.cleanups →
    b.world.addr.heap.count = 0 ∧ validSockets b.world = 0

/-! ### Sockets -/

section Sockets

variable {s t : World} {op : SocketOp}

/-- What an operation does to the users: they follow the valid sockets, and if the library
has been cleaned up there is none. -/
structure Follows (s t : World) : Prop where
  auto : t.addr.lib.autoInitialize = s.addr.lib.autoInitialize
  covered : ∀ k, s.addr.Covered (validSockets s + k) → t.addr.Covered (validSockets t + k)
  cleanups : s.addr.Covered (validSockets s) → t.addr.lib.cleanups ≠ s.addr.lib.cleanups →
    t.addr.lib.libraryUsers = 0

lemma Follows.of_kept (h : s.addr.Kept t.addr) (hv : validSockets t ≤ validSockets s) :
    Follows s t := by
  refine ⟨h.auto, fun k hk => ?_, fun _ => h.cleanups⟩
  apply (h.covered _ hk).mono
  omega

/-- A valid socket is made with a new user. -/
lemma Follows.of_enter (hlib : t.addr.lib = s.addr.lib.enter) (hheap : t.addr.heap = s.addr.heap)
    (hv : validSockets t = validSockets s + 1) : Follows s t := by
  refine ⟨by rw [hlib, Library.autoInitialize_enter], fun k hk => ?_, fun _ hne => ?_⟩
  · rw [Addresses.Covered, hlib, hheap, hv, Nat.add_right_comm, ← Nat.add_assoc]
    exact Library.Covers.enter hk
  · rw [hlib, Library.cleanups_enter] at hne
    exact absurd rfl hne

lemma total_pairUp (w : Socket → Nat) (socks : Store Socket) (a b j j' : Socket) :
    (pairUp socks a b j j').total w = socks.total w + w a + w b := by
  have h1 := socks.get_push a
  have h2 := (socks.push a).get_push b
  have h3 := ((socks.push a).push b).get_push a
  have hfirst : (((socks.push a).push b).push a).get socks.next = some a :=
    Store.get_push_of_some (Store.get_push_of_some (socks.get_push_self a) b) a
  have hput := Store.get_put hfirst j
  have h4 := ((((socks.push a).push b).push a).put socks.next j).get_push b
  have hsecond : ((((((socks.push a).push b).push a).put socks.next j).push b).get
      (socks.next + 1)) = some b := by
    grind [Store.next_push, Store.next_put]
  have hlast : (((((((socks.push a).push b).push a).put socks.next j).push b).erase
      (socks.next + 1)).get socks.next) = some j := by
    rw [Store.get_erase]
    grind [Store.next_push, Store.next_put]
  have t1 := Store.total_put w hfirst j
  have t2 := Store.total_erase w hsecond
  have t3 := Store.total_erase w hlast
  simp only [Store.total_push] at t1 t2
  simp only [pairUp, Store.erase_put]
  omega

lemma validSockets_erase {x : Nat} {v : Socket} (hx : s.socks.get x = some v)
    (hv : v.m_validFD = true) (hsocks : t.socks = s.socks.erase x) :
    validSockets t + 1 = validSockets s := by
  have herase := Store.total_erase validWeight hx
  rw [validWeight, if_pos hv] at herase
  rw [validSockets, hsocks]
  exact herase

/-- Sockets follow their descriptors: the users go with them. -/
lemma Effect.follows (he : Effect pl s op t) : Follows s t := by
  cases he with
  | created hfree hlib =>
    exact .of_enter rfl rfl (Store.total_push _ _ _)
  | @notCreated d ty protocol answer l cs hl hcs =>
    rcases hl with hl | rfl
    · exact .of_kept (Addresses.kept_of_sameUsers hl _) le_rfl
    · refine ⟨by simp, fun k hk => ?_, fun _ hne => ?_⟩
      · exact Addresses.Covered.mono (k := validSockets s + k + 1) (Library.Covers.enter hk)
          (Nat.le_succ _)
      · exact absurd (Library.cleanups_enter _) hne
  | accepted => exact .of_enter rfl rfl (Store.total_push _ _ _)
  | lost _ _ _ _ _ hl => exact .of_kept (Addresses.kept_of_sameUsers hl _) le_rfl
  | notAccepted => exact .of_kept (Addresses.Kept.refl _) le_rfl
  | @paired ty protocol fd0 fd1 junk junk' cs hfree0 hfree1 hne hcs =>
    let a : Socket := ⟨true, fd0, pl.domainOf .unix, ty, protocol⟩
    let b : Socket := ⟨true, fd1, pl.domainOf .unix, ty, protocol⟩
    have hvalid := total_pairUp validWeight s.socks a b { junk with m_validFD := false }
      { junk' with m_validFD := false }
    refine ⟨by simp, fun k hk => ?_, fun _ hne => ?_⟩
    · have hcov : s.addr.lib.enter.enter.Covers
          (s.addr.heap.count + (validSockets s + k) + 1 + 1) := (Library.Covers.enter hk).enter
      apply Library.Covers.mono hcov
      change s.addr.heap.count + (Store.total validWeight _ + k) ≤ _
      rw [hvalid, validSockets]
      simp only [validWeight, a, b, if_true]
      omega
    · exact absurd (by simp) hne
  | notPaired => exact .of_kept (Addresses.Kept.refl _) le_rfl
  | @moved y b junk hy =>
    refine .of_kept (Addresses.Kept.refl _) ?_
    have hput := Store.total_put validWeight (Store.get_push_of_some hy b)
      { junk with m_validFD := false }
    rw [Store.total_push] at hput
    simp only [validSockets, validWeight] at hput ⊢
    simp at hput
    omega
  | exchanged hop hx hy hsocks =>
    refine .of_kept (Addresses.Kept.refl _) ?_
    rw [validSockets, Store.total_congr _ hsocks, Store.total_exchange _ hx hy]
    exact le_rfl
  | peeked => exact .of_kept (Addresses.Kept.refl _) le_rfl
  | @released x v hx =>
    refine .of_kept (Addresses.Kept.refl _) ?_
    have hput := Store.total_put validWeight hx { v with m_validFD := false }
    simp only [validSockets, validWeight] at hput ⊢
    simp at hput
    omega
  | forgotten hx hv =>
    refine .of_kept (Addresses.Kept.refl _) ?_
    have herase := Store.total_erase validWeight hx
    simp only [validSockets]
    omega
  | closed hx hv hc =>
    have hvalid := validSockets_erase hx hv hc.socks
    refine ⟨by rw [hc.lib]; split <;> simp [SocketOp.start], fun k hk => ?_, fun hk hne => ?_⟩
    · rw [← hvalid, Nat.add_right_comm] at hk
      exact hc.covered hk
    · rw [← hvalid] at hk
      rw [hc.lib_eq hk] at hne ⊢
      exact Library.users_of_cleanups_leave hne
  | served hx hs =>
    refine .of_kept hs.addr ?_
    rw [validSockets, hs.socks]
    exact le_rfl

end Sockets

/-! ### Address objects and the application -/

namespace Addresses

variable {s : Addresses}

lemma copyObject_kept (s : Addresses) (p : Nat) :
    Prog.wp (copyObject pl p) (fun _ => s.Kept) (fun _ => s.Kept) (fun _ => True) s := by
  cases ho : s.heap.get p with
  | none => simp [copyObject, object, ho]
  | some o =>
    rw [copyObject, Prog.wp_bind, wp_object ho]
    exact newObject_kept s _

/-- The object that is moved from stays a user. -/
lemma moveObject_kept (s : Addresses) (p : Nat) (rest : List UInt8) :
    Prog.wp (moveObject pl p rest) (fun _ => s.Kept) (fun _ => s.Kept) (fun _ => True) s := by
  cases ho : s.heap.get p with
  | none => simp [moveObject, object, ho]
  | some o =>
    rw [moveObject, Prog.wp_bind, wp_object ho, Prog.wp_bind]
    apply newObject_spec
    · intro o' ho' _
      cases ho'
      have hkept := kept_push s o s.vars
      have hput := Store.total_put (fun _ => 1) (Store.get_push_of_some ho o) (o.movedFrom rest)
      refine ⟨hkept.auto, fun k hk => ?_, hkept.cleanups⟩
      apply Library.Covers.mono (hkept.covered k hk)
      simp only [Store.count]
      omega
    · intro _ e l hl
      exact kept_of_sameUsers hl s.vars
    · intro _ _
      trivial
    · intro hnone
      cases hnone

end Addresses

/-- Address objects do not touch the sockets. -/
lemma follows_of_kept {α : Type} {m : AddrProg α} {s : World}
    (h : Prog.wp m (fun _ => s.addr.Kept) (fun _ => s.addr.Kept) (fun _ => True) s.addr) :
    Prog.wp (World.addresses m) (fun _ => Follows s) (fun _ => Follows s) (fun _ => True) s := by
  rw [World.wp_addresses]
  exact Prog.wp_mono h (fun _ _ hk => .of_kept hk le_rfl) (fun _ _ hk => .of_kept hk le_rfl)
    (fun _ hk => hk)

/-- The operation is on an address object. -/
def LibraryOp.OnObject : LibraryOp → Prop
  | .socket _ | .initializeLibrary | .deinitializeLibrary => False
  | _ => True

/-- What holds after construction and destruction of address objects holds after these steps. -/
lemma LibraryOp.exists_of_step {R : World → Prop} {a b : Application} {op : LibraryOp}
    (hop : op.OnObject) (hs : op.step pl a = some b)
    (hnew : ∀ body, Prog.wp (World.addresses (Addresses.newObject pl body)) (fun _ => R)
      (fun _ => R) (fun _ => True) a.world)
    (hcopy : ∀ p, Prog.wp (World.addresses (Addresses.copyObject pl p)) (fun _ => R)
      (fun _ => R) (fun _ => True) a.world)
    (hmove : ∀ p rest, Prog.wp (World.addresses (Addresses.moveObject pl p rest)) (fun _ => R)
      (fun _ => R) (fun _ => True) a.world)
    (hdestroy : ∀ p, Prog.wp (World.addresses (Addresses.destroyObject pl p)) (fun _ => R)
      (fun _ => R) (fun _ => True) a.world) :
    ∃ t, b = ⟨t, a.balance⟩ ∧ R t := by
  have resumed : ∀ {m : SockProg Unit}, Prog.wp m (fun _ => R) (fun _ => R) (fun _ => True)
      a.world → (m a.world).resume.map (⟨·, a.balance⟩) = some b →
      ∃ t, b = ⟨t, a.balance⟩ ∧ R t := by
    intro m hm hb
    obtain ⟨t, ht, rfl⟩ := Option.map_eq_some_iff.mp hb
    exact ⟨t, rfl, Prog.resume_of_wp hm ht⟩
  cases op with
  | ofString f addrstr => exact resumed (World.wp_discard.mpr (hnew _)) hs
  | ofStorage f st len => exact resumed (World.wp_discard.mpr (hnew _)) hs
  | copy p => exact resumed (World.wp_discard.mpr (hcopy p)) hs
  | move p rest => exact resumed (World.wp_discard.mpr (hmove p rest)) hs
  | destroy p => exact resumed (hdestroy p) hs
  | socket op => exact hop.elim
  | initializeLibrary => exact hop.elim
  | deinitializeLibrary => exact hop.elim

/-- The invariant. -/
structure InUse (a : Application) : Prop where
  auto : a.world.addr.lib.autoInitialize = true
  covered : a.world.addr.Covered (validSockets a.world + a.balance)

namespace InUse

variable {a b : Application}

lemma usersCovered (h : InUse a) : UsersCovered a := by
  obtain ⟨hn, hu⟩ := h.covered h.auto
  exact ⟨by omega, hu⟩

/-- Without users there is nothing that would need one. -/
lemma unused (h : InUse a) (hz : a.world.addr.lib.libraryUsers = 0) :
    a.world.addr.heap.count = 0 ∧ validSockets a.world = 0 := by
  obtain ⟨hn, -⟩ := h.covered h.auto
  omega

/-- What an operation keeps. It cleans the library up only when no user is left. -/
def Keeps (a b : Application) : Prop :=
  InUse b ∧
    (b.world.addr.lib.cleanups ≠ a.world.addr.lib.cleanups → b.world.addr.lib.libraryUsers = 0)

lemma follows (h : InUse a) {t : World} (hf : Follows a.world t) : Keeps a ⟨t, a.balance⟩ :=
  ⟨⟨hf.auto.trans h.auto, hf.covered _ h.covered⟩,
    hf.cleanups (h.covered.mono (Nat.le_add_right _ _))⟩

lemma initializeLibrary_eq {l : Library} (h : l.autoInitialize = true) :
    initializeLibrary pl l = autoInitializeLibrary pl l := by
  simp only [autoInitializeLibrary, bind, Prog.andThen, Prog.gets, id, h, if_true]

lemma deinitializeLibrary_eq {l : Library} (h : l.autoInitialize = true) :
    deinitializeLibrary pl l = autoDeinitializeLibrary pl l := by
  simp only [autoDeinitializeLibrary, bind, Prog.andThen, Prog.gets, id, h, if_true]

/-- A call of `initialize` brings a user, unless it throws. -/
lemma enter_spec (pl : Platform) (h : InUse a) :
    Prog.wp (LibraryOp.exec pl .initializeLibrary)
      (fun _ t => InUse ⟨t, a.balance + 1⟩ ∧
        t.addr.lib.cleanups = a.world.addr.lib.cleanups)
      (fun _ t => InUse ⟨t, a.balance⟩ ∧
        t.addr.lib.cleanups = a.world.addr.lib.cleanups) (fun _ => True) a.world := by
  rw [LibraryOp.exec, World.wp_library, Prog.wp, initializeLibrary_eq h.auto]
  refine (wp_autoInitializeLibrary pl).mpr ⟨fun _ => ?_, fun _ => ?_⟩
  · exact ⟨⟨h.auto, h.covered⟩, rfl⟩
  · refine ⟨⟨?_, Library.Covers.enter h.covered⟩, Library.cleanups_enter _⟩
    exact (Library.autoInitialize_enter _).trans h.auto

/-- A call of `deinitialize` takes the user of an earlier call of `initialize` away. -/
lemma leave_spec (h : InUse a) (hb : a.balance ≠ 0) :
    Prog.wp (LibraryOp.exec pl .deinitializeLibrary)
      (fun _ t => Keeps a ⟨t, a.balance - 1⟩) (fun _ t => Keeps a ⟨t, a.balance - 1⟩)
      (fun _ => True) a.world := by
  have hleave : InUse ⟨{ a.world with
      addr := { a.world.addr with lib := a.world.addr.lib.leave } }, a.balance - 1⟩ := by
    refine ⟨(Library.autoInitialize_leave _).trans h.auto, ?_⟩
    apply Library.Covers.leave
    apply Library.Covers.mono h.covered
    change a.world.addr.heap.count + (validSockets a.world + (a.balance - 1)) + 1 ≤
      a.world.addr.heap.count + (validSockets a.world + a.balance)
    omega
  rw [LibraryOp.exec, World.wp_library, Prog.wp, deinitializeLibrary_eq h.auto]
  refine (wp_autoDeinitializeLibrary pl).mpr ⟨fun _ => ?_, fun _ => ?_⟩
  · exact ⟨hleave, Library.users_of_cleanups_leave⟩
  · exact ⟨hleave, Library.users_of_cleanups_leave⟩

lemma step_initializeLibrary (h : InUse a)
    (hs : LibraryOp.step pl a .initializeLibrary = some b) : Keeps a b := by
  have hwp := h.enter_spec pl
  unfold Prog.wp at hwp
  rw [LibraryOp.step] at hs
  cases ho : LibraryOp.exec pl .initializeLibrary a.world with
  | ok u t =>
    rw [ho] at hs hwp
    cases hs
    exact ⟨hwp.1, fun hne => absurd hwp.2 hne⟩
  | throw e t =>
    rw [ho] at hs hwp
    cases hs
    exact ⟨hwp.1, fun hne => absurd hwp.2 hne⟩
  | fault k =>
    rw [ho] at hs
    cases hs

lemma step_deinitializeLibrary (h : InUse a)
    (hs : LibraryOp.step pl a .deinitializeLibrary = some b) : Keeps a b := by
  rw [LibraryOp.step] at hs
  by_cases hb : a.balance = 0
  · rw [if_pos hb] at hs
    cases hs
  · rw [if_neg hb] at hs
    obtain ⟨t, ht, rfl⟩ := Option.map_eq_some_iff.mp hs
    exact Prog.resume_of_wp (P := fun t => Keeps a ⟨t, a.balance - 1⟩) (h.leave_spec hb) ht

/-- Every operation keeps the invariant, and cleans the library up only for the last user. -/
lemma step (h : InUse a) {op : LibraryOp} (hs : op.step pl a = some b) : Keeps a b := by
  have object : op.OnObject → Keeps a b := by
    intro hop
    obtain ⟨t, rfl, ht⟩ := LibraryOp.exists_of_step (R := Follows a.world) hop hs
      (fun body => follows_of_kept (Addresses.newObject_kept _ body))
      (fun p => follows_of_kept (Addresses.copyObject_kept _ p))
      (fun p rest => follows_of_kept (Addresses.moveObject_kept _ p rest))
      (fun p => follows_of_kept (Addresses.destroyObject_kept _ p))
    exact h.follows ht
  cases op with
  | socket op =>
    obtain ⟨t, ht, rfl⟩ := Option.map_eq_some_iff.mp hs
    exact h.follows (step_effect ht).follows
  | initializeLibrary => exact h.step_initializeLibrary hs
  | deinitializeLibrary => exact h.step_deinitializeLibrary hs
  | _ => exact object trivial

end InUse

/-- In every run with automatic initialization the library has a user for each live address
object and each valid socket, `deinitialize` is never called without one, and the library is
cleaned up only when there is nothing left that uses it. -/
theorem library_in_use (pl : Platform) (files : List (List UInt8)) (ops : List LibraryOp) :
    Along (LibraryOp.step pl) UsersCovered ⟨World.initial true files, 0⟩ ops ∧
      Guarded (LibraryOp.step pl) (CleansUpUnused pl) ⟨World.initial true files, 0⟩ ops := by
  have hinit : InUse ⟨World.initial true files, 0⟩ := ⟨rfl, fun _ => ⟨Nat.le_refl 0, rfl⟩⟩
  constructor
  · apply along_of_step (I := InUse)
    · intro a h
      exact h.usersCovered
    · intro a op b h hs
      exact (h.step hs).1
    · exact hinit
  · apply guarded_of_step (I := InUse)
    · intro a op b h hs
      exact (h.step hs).1
    · intro a op b h hs b' hs' hne
      obtain ⟨hb, hz⟩ := h.step hs'
      exact hb.unused (hz hne)
    · exact hinit

end SockLib
