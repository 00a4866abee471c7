import SockLib.Model.NumericHost
import SockLib.Proofs.LibraryUse

/-!
# References to the library

Every live object should account for one user of the library at most. A construction that
fails in `::socket`, and a socket that has given its descriptor away, leave their user behind.
-/

namespace SockLib

variable (pl : Platform)

/-! ### Starts and clean-ups -/

/-- How often the system library has been started with success. -/
def Library.started (l : Library) : Nat :=
  (List.range l.startups).countP fun k => !pl.windows || pl.WSAStartup k == 0

/-- Unless a user has left that was not there, the system library has been cleaned up once
for each start, but for the last one while there are users. -/
def Library.Settled (l : Library) : Prop :=
  l.underflows = 0 → l.started pl = l.cleanups + if l.libraryUsers = 0 then 0 else 1

namespace Library

variable {pl} {l : Library}

variable (pl) in
lemma started_succ (l : Library) (n : Nat) :
    ({ l with startups := l.startups + 1, libraryUsers := n } : Library).started pl =
      l.started pl + if pl.windows = true ∧ pl.WSAStartup l.startups ≠ 0 then 0 else 1 := by
  rw [started, started, List.range_succ, List.countP_append]
  by_cases hw : pl.windows = true
  · by_cases hstart : pl.WSAStartup l.startups = 0
    · simp [hw, hstart]
    · simp [hw, hstart]
  · simp [hw]

lemma Settled.startup (h : l.Settled pl) (hs : l.StartFails pl) :
    ({ l with startups := l.startups + 1 } : Library).Settled pl := by
  intro hu
  have hsucc := started_succ pl l l.libraryUsers
  rw [if_pos hs.2.2] at hsucc
  rw [hsucc]
  exact h hu

lemma Settled.enter (h : l.Settled pl) (hs : ¬l.StartFails pl) : l.enter.Settled pl := by
  by_cases hauto : l.autoInitialize = true
  · rw [Library.enter, if_pos hauto]
    intro hu
    have hl := h hu
    by_cases hzero : l.libraryUsers = 0
    · have hsucc := started_succ pl l (l.libraryUsers + 1)
      have hstart : ¬(pl.windows = true ∧ pl.WSAStartup l.startups ≠ 0) := fun hfail =>
        hs ⟨hauto, hzero, hfail⟩
      rw [if_neg hstart] at hsucc
      rw [if_pos hzero] at hl
      simp only [hzero, if_true, Nat.zero_add, one_ne_zero, if_false] at hsucc ⊢
      omega
    · rw [if_neg hzero] at hl
      simp only [hzero, if_false]
      exact hl
  · rwa [Library.enter, if_neg hauto]

lemma Settled.leave (h : l.Settled pl) : l.leave.Settled pl := by
  by_cases hauto : l.autoInitialize = true
  · rw [Library.leave, if_pos hauto]
    intro hu
    by_cases hzero : l.libraryUsers = 0
    · -- leaving without a user has been counted
      simp only [hzero, if_true] at hu
      omega
    · simp only [hzero, if_false] at hu
      have hl := h hu
      rw [if_neg hzero] at hl
      simp only [sizeDec, hzero, if_false]
      by_cases hone : l.libraryUsers - 1 = 0
      · simp only [hone, if_true]
        exact hl
      · simp only [hone, if_false]
        exact hl
  · rwa [Library.leave, if_neg hauto]

lemma users_enter (hauto : l.autoInitialize = true) :
    l.enter.libraryUsers = l.libraryUsers + 1 := by
  rw [Library.enter, if_pos hauto]

lemma users_leave (hauto : l.autoInitialize = true) (hpos : 0 < l.libraryUsers) :
    l.leave.libraryUsers + 1 = l.libraryUsers := by
  have hne : l.libraryUsers ≠ 0 := by omega
  rw [Library.leave, if_pos hauto]
  simp only [sizeDec, hne, if_false]
  omega

end Library

/-! ### What an operation does to the account -/

/-- The number of live objects, addresses and sockets. -/
def World.objects (s : World) : Nat := s.addr.heap.count + s.socks.count

/-- No more users than live objects; without objects there is no user, and the system library
has been cleaned up. -/
def NoneLeaked (a : Application) : Prop :=
  a.world.addr.lib.libraryUsers ≤ a.world.objects ∧
    (a.world.objects = 0 → a.world.addr.lib.libraryUsers = 0 ∧
      a.world.addr.lib.started pl = a.world.addr.lib.cleanups)

instance (l : Library) : Decidable (l.StartFails pl) :=
  inferInstanceAs (Decidable (_ ∧ _ ∧ _ ∧ _))

/-- By how much an operation changes the number of objects that are not users: a move
construction makes one, a failed construction is a user without an object, and so is what is
left of a socket destroyed without its descriptor. -/
def SocketOp.margin (s : World) : SocketOp → Int
  | .create _ _ _ (.error _) => if s.addr.lib.StartFails pl then 0 else -1
  | .move _ _ => 1
  | .destroy x _ =>
    match s.socks.get x with
    | some v => if v.m_validFD = true then 0 else -1
    | none => 0
  | _ => 0

def LibraryOp.margin (a : Application) : LibraryOp → Int
  | .socket op => op.margin pl a.world
  | _ => 0

/-- The operations of a program that leaves the counter to the library. -/
def LibraryOp.Automatic : LibraryOp → Prop
  | .socket (.member _ _) => False
  | .initializeLibrary => False
  | .deinitializeLibrary => False
  | _ => True

/-- The users follow the objects, but for a margin. -/
structure Accounts (pl : Platform) (k : Int) (s t : World) : Prop where
  users : (t.addr.lib.libraryUsers : Int) + k + s.objects =
    s.addr.lib.libraryUsers + t.objects
  settled : s.addr.lib.Settled pl → t.addr.lib.Settled pl

section Sockets

variable {pl} {s t : World}

lemma Accounts.of_addr (haddr : t.addr = s.addr) {k : Int}
    (hk : (t.socks.count : Int) = s.socks.count + k) : Accounts pl k s t := by
  constructor
  · simp only [World.objects, haddr]
    omega
  · rw [haddr]
    exact id

lemma Accounts.of_same (haddr : t.addr = s.addr) (hsocks : t.socks = s.socks) :
    Accounts pl 0 s t := by
  apply Accounts.of_addr haddr
  rw [hsocks]
  exact (Int.add_zero _).symm

/-- One more user. -/
lemma Accounts.of_enter (hauto : s.addr.lib.autoInitialize = true)
    (hs : ¬s.addr.lib.StartFails pl) (hlib : t.addr.lib = s.addr.lib.enter) {k : Int}
    (hk : (t.objects : Int) = s.objects + 1 + k) : Accounts pl k s t := by
  have husers := Library.users_enter hauto
  constructor
  · rw [hlib]
    omega
  · rw [hlib]
    intro h
    exact h.enter hs

/-- One more socket, and a user with it. -/
lemma Accounts.of_socket (hauto : s.addr.lib.autoInitialize = true)
    (hs : ¬s.addr.lib.StartFails pl) (hlib : t.addr.lib = s.addr.lib.enter)
    (hheap : t.addr.heap = s.addr.heap) {v : Socket} (hsocks : t.socks = s.socks.push v) :
    Accounts pl 0 s t := by
  apply Accounts.of_enter hauto hs hlib
  simp only [World.objects, hheap, hsocks, Store.count, Store.total_push]
  omega

/-- A library that does not start has no new user. -/
lemma Accounts.of_startFails (hs : s.addr.lib.StartFails pl)
    (hlib : t.addr.lib = { s.addr.lib with startups := s.addr.lib.startups + 1 })
    (hk : t.objects = s.objects) : Accounts pl 0 s t := by
  have husers : t.addr.lib.libraryUsers = s.addr.lib.libraryUsers := by rw [hlib]
  constructor
  · rw [husers, hk]
    omega
  · rw [hlib]
    intro h
    exact h.startup hs

lemma Accounts.of_exchange (haddr : t.addr = s.addr) {x y : Nat} {a b : Socket}
    (hx : s.socks.get x = some a) (hy : s.socks.get y = some b)
    (hsocks : ∀ z, t.socks.get z = ((s.socks.put x b).put y a).get z) : Accounts pl 0 s t := by
  apply Accounts.of_addr haddr
  rw [Store.count, Store.total_congr _ hsocks, Store.total_exchange _ hx hy]
  exact (Int.add_zero _).symm

/-- A socket that owns a descriptor takes its user with it. -/
lemma Accounts.of_closed (hauto : s.addr.lib.autoInitialize = true)
    (hcov : s.addr.Covered (validSockets s)) {x : Nat} {v : Socket} {name : NameAnswer}
    (hx : s.socks.get x = some v) (hv : v.m_validFD = true)
    (hc : Closed pl x v name (SocketOp.start s) t) : Accounts pl 0 s t := by
  have hk : s.addr.Covered (validSockets t + 1) := by
    rw [validSockets_erase hx hv hc.socks]
    exact hcov
  have hlib : t.addr.lib = s.addr.lib.leave := hc.lib_eq hk
  have hpos : 0 < s.addr.lib.libraryUsers := by
    have hle := (hk hauto).1
    omega
  have husers := Library.users_leave hauto hpos
  have hobjects : t.objects + 1 = s.objects := by
    have hcount := Store.total_erase (fun _ => 1) hx
    have hheap : t.addr.heap.count = s.addr.heap.count := hc.count
    have hsocks : t.socks = s.socks.erase x := hc.socks
    simp only [World.objects, hheap, hsocks]
    simp only [Store.count] at hcount ⊢
    omega
  constructor
  · rw [hlib]
    omega
  · rw [hlib]
    intro h
    exact h.leave

/-- A construction that fails in `::socket` leaves its user behind. -/
lemma create_accounts (hauto : s.addr.lib.autoInitialize = true) (d : Nat) (ty protocol : Int)
    (answer : Except Int Int) :
    Prog.wp (World.create pl d ty protocol answer)
      (fun _ => Accounts pl (SocketOp.margin pl s (.create d ty protocol answer)) s)
      (fun _ => Accounts pl (SocketOp.margin pl s (.create d ty protocol answer)) s)
      (fun _ => True) (SocketOp.start s) := by
  rw [World.create, Prog.wp_bind, World.wp_enter]
  refine ⟨fun hs => ?_, fun hs => ?_⟩
  · have hmargin : SocketOp.margin pl s (.create d ty protocol answer) = 0 := by
      cases answer with
      | ok fd => rfl
      | error errno => exact if_pos hs
    rw [hmargin]
    exact .of_startFails hs rfl rfl
  · rw [Prog.wp_bind, World.wp_sysCall, Prog.wp_bind, World.wp_check]
    refine ⟨fun fd hfd => ?_, fun errno herrno => ?_⟩
    · subst hfd
      rw [Prog.wp_bind, World.wp_kernelStep]
      exact ⟨fun k _ => .of_socket hauto hs rfl rfl rfl, fun _ => trivial⟩
    · subst herrno
      have hmargin : SocketOp.margin pl s (.create d ty protocol (.error errno)) = -1 := if_neg hs
      rw [hmargin]
      apply Accounts.of_enter hauto hs rfl
      simp only [World.objects, SocketOp.start]
      omega

lemma accept_accounts (hauto : s.addr.lib.autoInitialize = true) (x : Nat)
    (answer : Except Int Int) :
    Prog.wp (World.accept pl x answer) (fun _ => Accounts pl 0 s)
      (fun _ => Accounts pl 0 s) (fun _ => True) (SocketOp.start s) := by
  cases hx : (SocketOp.start s).socks.get x with
  | none => simp [World.accept, World.request, World.this, hx]
  | some v =>
    rw [World.accept, Prog.wp_bind, World.wp_request hx]
    refine ⟨fun peer _ => ?_, fun errno _ => .of_same rfl rfl⟩
    rw [Prog.wp_bind]
    refine (World.wp_this (by exact hx)).mpr ?_
    rw [Prog.wp_bind, World.wp_kernelStep]
    refine ⟨fun k _ => ?_, fun _ => trivial⟩
    rw [World.wp_wrap]
    exact ⟨fun hs => .of_startFails hs rfl rfl, fun hs => .of_socket hauto hs rfl rfl rfl⟩

lemma createUnixPair_accounts (hauto : s.addr.lib.autoInitialize = true) {ty protocol : Int}
    {junk junk' : Socket} {answer : Except Int (Int × Int)}
    (h : SocketOp.step pl s (.createUnixPair ty protocol junk junk' answer) = some t) :
    Accounts pl 0 s t := by
  by_cases hw : pl.windows = true
  · apply Prog.resume_of_wp (F := fun _ => True) ?_ h
    rw [SocketOp.exec, World.wp_discard, World.createUnixPair]
    simp only [hw, if_true, Prog.wp_bind, Prog.wp_raise]
    exact .of_same rfl rfl
  · have hs := Library.not_startFails_of_posix (Bool.eq_false_iff.mpr hw)
    cases step_effect h with
    | exchanged hop => rcases hop with hop | ⟨_, hop⟩ <;> cases hop
    | notPaired => exact .of_same rfl rfl
    | @paired _ _ fd0 fd1 =>
      have hcount := total_pairUp (fun _ => 1) s.socks ⟨true, fd0, pl.domainOf .unix, ty, protocol⟩
        ⟨true, fd1, pl.domainOf .unix, ty, protocol⟩ { junk with m_validFD := false }
        { junk' with m_validFD := false }
      have hone := Library.users_enter hauto
      have htwo := Library.users_enter (hauto ▸ s.addr.lib.autoInitialize_enter)
      constructor
      · simp only [World.objects, Store.count] at hcount ⊢
        omega
      · intro hsettled
        exact (hsettled.enter (hs _)).enter (hs _)

/-- Sockets and their users, for one operation. -/
lemma SocketOp.accounts {op : SocketOp} (hauto : s.addr.lib.autoInitialize = true)
    (hcov : s.addr.Covered (validSockets s)) (hop : ∀ x m, op ≠ .member x m)
    (h : op.step pl s = some t) : Accounts pl (op.margin pl s) s t := by
  cases op with
  | create d ty protocol answer =>
    exact Prog.resume_of_wp (World.wp_discard.mpr (create_accounts hauto d ty protocol answer)) h
  | accept x answer =>
    exact Prog.resume_of_wp (World.wp_discard.mpr (accept_accounts hauto x answer)) h
  | createUnixPair ty protocol junk junk' answer => exact createUnixPair_accounts hauto h
  | move y junk =>
    cases step_effect h with
    | exchanged hop => rcases hop with hop | ⟨_, hop⟩ <;> cases hop
    | @moved _ b _ hy =>
      refine .of_addr (by rfl) ?_
      have hput := Store.total_put (fun _ => 1) (Store.get_push_of_some hy b)
        { junk with m_validFD := false }
      rw [Store.total_push] at hput
      simp only [SocketOp.margin, Store.count] at hput ⊢
      omega
  | moveAssign x y =>
    cases step_effect h with
    | exchanged _ hx hy hsocks => exact .of_exchange rfl hx hy hsocks
  | swap x y junk =>
    cases step_effect h with
    | exchanged _ hx hy hsocks => exact .of_exchange rfl hx hy hsocks
  | socketFD x takeOwnership =>
    cases step_effect h with
    | exchanged hop => rcases hop with hop | ⟨_, hop⟩ <;> cases hop
    | peeked => exact .of_same rfl rfl
    | @released _ v hx =>
      refine .of_addr (by rfl) ?_
      have hput := Store.total_put (fun _ => 1) hx { v with m_validFD := false }
      simp only [SocketOp.margin, Store.count] at hput ⊢
      omega
  | destroy x name =>
    cases step_effect h with
    | exchanged hop => rcases hop with hop | ⟨_, hop⟩ <;> cases hop
    | forgotten hx hv =>
      refine .of_addr (by rfl) ?_
      have herase := Store.total_erase (fun _ => 1) hx
      simp only [SocketOp.margin, hx, hv, Store.count] at herase ⊢
      simp only [Bool.false_eq_true, if_false]
      omega
    | closed hx hv hc =>
      have hmargin : SocketOp.margin pl s (.destroy x name) = 0 := by
        simp only [SocketOp.margin, hx, hv, if_true]
      rw [hmargin]
      exact .of_closed hauto hcov hx hv hc
  | member x m => exact absurd rfl (hop x m)

end Sockets

/-! ### Address objects -/

namespace Addresses

/-- The users follow the address objects. -/
structure Tallies (pl : Platform) (s t : Addresses) : Prop where
  users : t.lib.libraryUsers + s.heap.count = s.lib.libraryUsers + t.heap.count
  settled : s.lib.Settled pl → t.lib.Settled pl

variable {pl} {s : Addresses}

lemma tallies_startup (hs : s.lib.StartFails pl) :
    s.Tallies pl { s with lib := { s.lib with startups := s.lib.startups + 1 } } :=
  ⟨rfl, fun h => h.startup hs⟩

/-- A new object brings its own user. -/
lemma tallies_push (hauto : s.lib.autoInitialize = true) (hs : ¬s.lib.StartFails pl)
    {heap : Store AddressObject} (hcount : heap.count = s.heap.count + 1) :
    s.Tallies pl { s with lib := s.lib.enter, heap } := by
  have husers := Library.users_enter hauto
  constructor
  · change s.lib.enter.libraryUsers + s.heap.count = s.lib.libraryUsers + heap.count
    omega
  · intro h
    exact h.enter hs

/-- A constructor that throws takes its user back. -/
lemma newObject_tallies (hauto : s.lib.autoInitialize = true)
    (body : Option (Except Exn AddressObject)) :
    Prog.wp (newObject pl body) (fun _ => s.Tallies pl) (fun _ => s.Tallies pl) (fun _ => True)
      s := by
  rcases body with _ | e | o
  · rw [wp_newObject_none]
    exact ⟨tallies_startup, fun _ => trivial⟩
  · rw [wp_newObject_error]
    refine ⟨tallies_startup, fun hs => ⟨fun _ => trivial, fun _ => ?_⟩⟩
    have henter := Library.users_enter hauto
    have hleave := Library.users_leave (hauto ▸ s.lib.autoInitialize_enter)
      (show 0 < s.lib.enter.libraryUsers by omega)
    constructor
    · change s.lib.enter.leave.libraryUsers + s.heap.count = s.lib.libraryUsers + s.heap.count
      omega
    · intro h
      exact (h.enter hs).leave
  · rw [wp_newObject_ok]
    exact ⟨tallies_startup, fun hs => tallies_push hauto hs (count_push s.heap o)⟩

lemma copyObject_tallies (hauto : s.lib.autoInitialize = true) (p : Nat) :
    Prog.wp (copyObject pl p) (fun _ => s.Tallies pl) (fun _ => s.Tallies pl) (fun _ => True)
      s := by
  cases ho : s.heap.get p with
  | none => simp [copyObject, object, ho]
  | some o =>
    rw [copyObject, Prog.wp_bind, wp_object ho]
    exact newObject_tallies hauto _

/-- Both objects of a move are users. -/
lemma moveObject_tallies (hauto : s.lib.autoInitialize = true) (p : Nat) (rest : List UInt8) :
    Prog.wp (moveObject pl p rest) (fun _ => s.Tallies pl) (fun _ => s.Tallies pl) (fun _ => True)
      s := by
  cases ho : s.heap.get p with
  | none => simp [moveObject, object, ho]
  | some o =>
    rw [moveObject, Prog.wp_bind, wp_object ho, Prog.wp_bind, wp_newObject_ok]
    refine ⟨tallies_startup, fun hs => ?_⟩
    have hput := Store.total_put (fun _ => 1) (Store.get_push_of_some ho o) (o.movedFrom rest)
    rw [Store.total_push] at hput
    apply tallies_push hauto hs
    simp only [Store.count]
    omega

lemma destroyObject_tallies (hauto : s.lib.autoInitialize = true) (hcov : s.Covered 0) (p : Nat) :
    Prog.wp (destroyObject pl p) (fun _ => s.Tallies pl) (fun _ => s.Tallies pl) (fun _ => True)
      s := by
  cases hp : s.heap.get p with
  | none => simp [destroyObject, hp]
  | some o =>
    rw [wp_destroyObject pl hp]
    refine ⟨fun _ => trivial, fun _ => ?_⟩
    have hcount := count_erase hp
    have hle := (hcov hauto).1
    have husers := Library.users_leave hauto (by omega)
    constructor
    · change s.lib.leave.libraryUsers + s.heap.count = s.lib.libraryUsers + (s.heap.erase p).count
      omega
    · intro h
      exact h.leave

end Addresses

lemma accounts_of_tallies {α : Type} {m : AddrProg α} {s : World}
    (h : Prog.wp m (fun _ => s.addr.Tallies pl) (fun _ => s.addr.Tallies pl) (fun _ => True)
      s.addr) :
    Prog.wp (World.addresses m) (fun _ => Accounts pl 0 s) (fun _ => Accounts pl 0 s)
      (fun _ => True) s := by
  have haccounts : ∀ t, s.addr.Tallies pl t → Accounts pl 0 s { s with addr := t } := by
    intro t ht
    have husers := ht.users
    constructor
    · simp only [World.objects]
      omega
    · exact ht.settled
  rw [World.wp_addresses]
  exact Prog.wp_mono h (fun _ _ ht => haccounts _ ht) (fun _ _ ht => haccounts _ ht)
    (fun _ hk => hk)

/-! ### Runs -/

/-- The invariant: the number of objects that are not users is `n`. -/
structure Ledger (a : Application) (n : Int) : Prop where
  inUse : InUse a
  settled : a.world.addr.lib.Settled pl
  account : (a.world.addr.lib.libraryUsers : Int) + n = a.world.objects

namespace Ledger

variable {pl} {a b : Application} {n : Int}

lemma noneLeaked_iff (h : Ledger pl a n) : NoneLeaked pl a ↔ 0 ≤ n := by
  have haccount := h.account
  constructor
  · rintro ⟨hle, -⟩
    omega
  · intro hn
    refine ⟨by omega, fun hz => ?_⟩
    have husers : a.world.addr.lib.libraryUsers = 0 := by omega
    have hsettled := h.settled (h.inUse.covered h.inUse.auto).2
    rw [if_pos husers] at hsettled
    exact ⟨husers, hsettled⟩

lemma accounts (h : Ledger pl a n) {op : LibraryOp} (hop : op.Automatic)
    (hs : op.step pl a = some b) : Accounts pl (op.margin pl a) a.world b.world := by
  have hauto := h.inUse.auto
  have hcov := h.inUse.covered.mono (Nat.zero_le _)
  have object : op.OnObject → Accounts pl 0 a.world b.world := by
    intro hobject
    obtain ⟨t, rfl, ht⟩ := LibraryOp.exists_of_step (R := Accounts pl 0 a.world) hobject hs
      (fun body => accounts_of_tallies pl (Addresses.newObject_tallies hauto body))
      (fun p => accounts_of_tallies pl (Addresses.copyObject_tallies hauto p))
      (fun p rest => accounts_of_tallies pl (Addresses.moveObject_tallies hauto p rest))
      (fun p => accounts_of_tallies pl (Addresses.destroyObject_tallies hauto hcov p))
    exact ht
  cases op with
  | socket op =>
    obtain ⟨t, ht, rfl⟩ := Option.map_eq_some_iff.mp hs
    apply SocketOp.accounts hauto (h.inUse.covered.mono (Nat.le_add_right _ _)) ?_ ht
    rintro x m rfl
    exact hop
  | initializeLibrary => exact hop.elim
  | deinitializeLibrary => exact hop.elim
  | _ => exact object trivial

lemma step (h : Ledger pl a n) {op : LibraryOp} (hop : op.Automatic)
    (hs : op.step pl a = some b) : Ledger pl b (n + op.margin pl a) := by
  have hacc := h.accounts hop hs
  have husers := hacc.users
  have haccount := h.account
  exact ⟨(h.inUse.step hs).1, hacc.settled h.settled, by omega⟩

end Ledger

/-- With automatic initialization no reference is leaked exactly when at every point of the run
the constructions that have failed in `::socket` and the sockets destroyed without a descriptor
are at most as many as the move constructions. -/
theorem none_leaked_iff (files : List (List UInt8)) (ops : List LibraryOp)
    (hops : ∀ op ∈ ops, op.Automatic) :
    Along (LibraryOp.step pl) (NoneLeaked pl) ⟨World.initial true files, 0⟩ ops ↔
      Solvent (LibraryOp.step pl) (LibraryOp.margin pl) ⟨World.initial true files, 0⟩ 0 ops := by
  have hinit : Ledger pl ⟨World.initial true files, 0⟩ 0 :=
    ⟨⟨rfl, fun _ => ⟨Nat.le_refl 0, rfl⟩⟩, fun _ => rfl, rfl⟩
  apply along_iff_solvent (I := Ledger pl) (A := LibraryOp.Automatic)
  · intro a n h
    exact h.noneLeaked_iff
  · intro a n op b h hop hs
    exact h.step hop hs
  · exact hinit
  · exact hops

/-- A socket is made and moved from, and an address object is made. -/
def movedSocket : List LibraryOp :=
  [.socket (.create 2 1 0 (.ok 3)), .socket (.move 0 ⟨false, 0, 0, 0, 0⟩),
    .ofString .IPv4 (bytes "1.2.3.4")]

theorem none_leaked_iff_linux :
    Along (LibraryOp.step linuxHost) (NoneLeaked linuxHost) ⟨World.initial true [], 0⟩
      movedSocket := by
  have hops : ∀ op ∈ movedSocket, op.Automatic := by
    intro op hop
    simp only [movedSocket, List.mem_cons, List.not_mem_nil, or_false] at hop
    rcases hop with rfl | rfl | rfl <;> trivial
  refine (none_leaked_iff linuxHost [] movedSocket hops).mpr ⟨Int.le_refl 0, fun _ _ => ?_⟩
  refine ⟨Int.le_refl 0, fun _ _ => ?_⟩
  exact ⟨Int.one_nonneg, fun _ _ => Int.one_nonneg⟩

/-- A socket that could not be made has left a user behind. -/
theorem references_leaked :
    ¬∀ ops : List LibraryOp, (∀ op ∈ ops, op.Automatic) →
      Along (LibraryOp.step linuxHost) (NoneLeaked linuxHost) ⟨World.initial true [], 0⟩ ops := by
  intro h
  have hops : ∀ op ∈ [LibraryOp.socket (.create 2 1 999 (.error EINVAL))], op.Automatic := by
    intro op hop
    rw [List.mem_singleton.mp hop]
    trivial
  have hlast := (h _ hops).last rfl
  exact absurd hlast.1 (by decide)

end SockLib
