import SockLib.Foundation.Runs
import SockLib.Proofs.Effects

/-!
# Ownership of descriptors

A number is owned when a live object with `m_validFD` has it. Objects own different open
descriptors, and every operation keeps this. What an operation does to the set of owned
numbers and to the descriptors is one of a few changes, whatever objects it goes through.
-/

namespace SockLib

/-! ### Owned numbers -/

/-- The object has `m_validFD` and this number. -/
def Owner (socks : Store Socket) (x : Nat) (n : Int) : Prop :=
  ∃ v, socks.get x = some v ∧ v.m_validFD = true ∧ v.m_sockFD = n

def Owned (socks : Store Socket) (n : Int) : Prop := ∃ x, Owner socks x n

/-- No two objects own the same number. -/
def Sole (socks : Store Socket) : Prop :=
  ∀ x y n, Owner socks x n → Owner socks y n → x = y

section Owners

variable {socks socks' : Store Socket} {x y : Nat} {a b v j : Socket} {n : Int}

lemma owner_iff (hx : socks.get x = some v) :
    Owner socks x n ↔ v.m_validFD = true ∧ v.m_sockFD = n := by
  constructor
  · rintro ⟨w, hw, hn⟩
    rw [hx] at hw
    cases hw
    exact hn
  · intro hn
    exact ⟨v, hx, hn⟩

lemma owner_push (v : Socket) :
    Owner (socks.push v) x n ↔
      if x = socks.next then v.m_validFD = true ∧ v.m_sockFD = n else Owner socks x n := by
  unfold Owner
  rw [Store.get_push]
  split
  · simp
  · rfl

lemma owner_put (hx : socks.get x = some v) (w : Socket) :
    Owner (socks.put x w) y n ↔
      if y = x then w.m_validFD = true ∧ w.m_sockFD = n else Owner socks y n := by
  unfold Owner
  rw [Store.get_put hx]
  split
  · simp
  · rfl

lemma owner_erase : Owner (socks.erase x) y n ↔ y ≠ x ∧ Owner socks y n := by
  unfold Owner
  rw [Store.get_erase]
  split
  · simp [*]
  · simp [*]

lemma not_owner_next : ¬Owner socks socks.next n := by
  rintro ⟨v, hv, -⟩
  rw [Store.get_next] at hv
  cases hv

lemma owned_push (v : Socket) :
    Owned (socks.push v) n ↔ Owned socks n ∨ (v.m_validFD = true ∧ v.m_sockFD = n) := by
  have hnext : ¬Owner socks socks.next n := not_owner_next
  simp only [Owned, owner_push]
  grind

lemma Sole.push (h : Sole socks) (hn : ¬Owned socks v.m_sockFD) : Sole (socks.push v) := by
  intro x y n hx hy
  rw [owner_push] at hx hy
  simp only [Sole, Owned] at h hn
  grind

/-- Two objects that exchange what they have own the same numbers together. -/
lemma owner_exchange (hx : socks.get x = some a) (hy : socks.get y = some b)
    (hget : ∀ z, socks'.get z = ((socks.put x b).put y a).get z) (z : Nat) :
    Owner socks' z n ↔ if z = y then Owner socks x n else if z = x then Owner socks y n
      else Owner socks z n := by
  have hy' : (socks.put x b).get y = some b := by
    rw [Store.get_put hx]
    split
    · rfl
    · exact hy
  have heq : Owner socks' z n ↔ Owner ((socks.put x b).put y a) z n := by
    unfold Owner
    rw [hget]
  rw [heq, owner_put hy', owner_put hx, owner_iff hx, owner_iff hy]

lemma owned_exchange (hx : socks.get x = some a) (hy : socks.get y = some b)
    (hget : ∀ z, socks'.get z = ((socks.put x b).put y a).get z) :
    Owned socks' n ↔ Owned socks n := by
  have howner := owner_exchange (n := n) hx hy hget
  simp only [Owned]
  constructor
  · rintro ⟨z, hz⟩
    grind
  · rintro ⟨z, hz⟩
    by_cases hzx : z = x
    · exact ⟨y, by grind⟩
    · by_cases hzy : z = y
      · exact ⟨x, by grind⟩
      · exact ⟨z, by grind⟩

lemma Sole.exchange (h : Sole socks) (hx : socks.get x = some a) (hy : socks.get y = some b)
    (hget : ∀ z, socks'.get z = ((socks.put x b).put y a).get z) : Sole socks' := by
  intro z w n hz hw
  rw [owner_exchange hx hy hget] at hz hw
  unfold Sole at h
  grind

/-- The new object owns what the old one did. -/
lemma owner_move (hy : socks.get y = some b) (hj : j.m_validFD = false) (z : Nat) :
    Owner ((socks.push b).put y j) z n ↔
      z ≠ y ∧ if z = socks.next then Owner socks y n else Owner socks z n := by
  rw [owner_put (Store.get_push_of_some hy b), owner_push, owner_iff hy]
  split
  · simp [*]
  · simp [*]

lemma owned_move (hy : socks.get y = some b) (hj : j.m_validFD = false) :
    Owned ((socks.push b).put y j) n ↔ Owned socks n := by
  have howner := owner_move (n := n) hy hj
  have hnext : ¬Owner socks socks.next n := not_owner_next
  have hne := Store.ne_next hy
  simp only [Owned]
  constructor
  · rintro ⟨z, hz⟩
    grind
  · rintro ⟨z, hz⟩
    by_cases hzy : z = y
    · exact ⟨socks.next, by grind⟩
    · exact ⟨z, by grind⟩

lemma Sole.move (h : Sole socks) (hy : socks.get y = some b) (hj : j.m_validFD = false) :
    Sole ((socks.push b).put y j) := by
  intro z w n hz hw
  rw [owner_move hy hj] at hz hw
  unfold Sole at h
  grind

/-- An object that is not valid any more owns nothing. -/
lemma owner_disown (hx : socks.get x = some v) (hj : j.m_validFD = false) :
    Owner (socks.put x j) y n ↔ y ≠ x ∧ Owner socks y n := by
  rw [owner_put hx]
  split
  · simp [*]
  · simp [*]

lemma Sole.disown (h : Sole socks) (hx : socks.get x = some v) (hj : j.m_validFD = false) :
    Sole (socks.put x j) := by
  intro y z n hy hz
  rw [owner_disown hx hj] at hy hz
  exact h y z n hy.2 hz.2

lemma Sole.erase (h : Sole socks) : Sole (socks.erase x) := by
  intro y z n hy hz
  rw [owner_erase] at hy hz
  exact h y z n hy.2 hz.2

/-- What is owned when an object loses its descriptor, by release or by destruction. -/
lemma owned_without (h : Sole socks) (hx : socks.get x = some v) (hv : v.m_validFD = true)
    (howner : ∀ y n, Owner socks' y n ↔ y ≠ x ∧ Owner socks y n) :
    Owned socks' n ↔ Owned socks n ∧ n ≠ v.m_sockFD := by
  have hown : ∀ n, Owner socks x n ↔ v.m_sockFD = n := by
    intro n
    rw [owner_iff hx]
    simp [hv]
  constructor
  · rintro ⟨y, hy⟩
    obtain ⟨hne, hy⟩ := (howner y n).mp hy
    refine ⟨⟨y, hy⟩, fun heq => hne ?_⟩
    exact h y x n hy ((hown n).mpr heq.symm)
  · rintro ⟨⟨y, hy⟩, hne⟩
    refine ⟨y, (howner y n).mpr ⟨?_, hy⟩⟩
    rintro rfl
    exact hne ((hown n).mp hy).symm

/-- What is owned when an object without a descriptor is gone. -/
lemma owned_without_invalid (hx : socks.get x = some v) (hv : v.m_validFD = false)
    (howner : ∀ y n, Owner socks' y n ↔ y ≠ x ∧ Owner socks y n) :
    Owned socks' n ↔ Owned socks n := by
  have hown : ¬Owner socks x n := by
    rw [owner_iff hx]
    simp [hv]
  simp only [Owned]
  grind

lemma owner_pairUp (a b j j' : Socket) (z : Nat) :
    Owner (pairUp socks a b j j') z n ↔
      if z = socks.next + 2 then a.m_validFD = true ∧ a.m_sockFD = n
      else if z = socks.next + 3 then b.m_validFD = true ∧ b.m_sockFD = n
      else Owner socks z n := by
  unfold Owner
  rw [get_pairUp]
  split
  · simp
  · split
    · simp
    · rfl

lemma not_owner_of_next_le (hx : socks.next ≤ x) : ¬Owner socks x n := by
  rintro ⟨v, hv, -⟩
  have hlt := Store.lt_next hv
  omega

/-- The two objects of a pair own what their temporaries did. -/
lemma owned_pairUp (a b j j' : Socket) :
    Owned (pairUp socks a b j j') n ↔
      Owned (socks.push a) n ∨ (b.m_validFD = true ∧ b.m_sockFD = n) := by
  have howner (z : Nat) : Owner (pairUp socks a b j j') z n ↔ _ := owner_pairUp a b j j' z
  have h2 : ¬Owner socks (socks.next + 2) n := not_owner_of_next_le (by omega)
  have h3 : ¬Owner socks (socks.next + 3) n := not_owner_of_next_le (by omega)
  rw [owned_push]
  constructor
  · rintro ⟨z, hz⟩
    simp only [Owned]
    grind
  · rintro ((⟨z, hz⟩ | ha) | hb)
    · exact ⟨z, by grind⟩
    · exact ⟨socks.next + 2, by grind⟩
    · exact ⟨socks.next + 3, by grind⟩

lemma Sole.pairUp (h : Sole socks) (ha : ¬Owned socks a.m_sockFD)
    (hb : ¬Owned socks b.m_sockFD) (hab : a.m_sockFD ≠ b.m_sockFD) (j j' : Socket) :
    Sole (pairUp socks a b j j') := by
  intro z w n hz hw
  rw [owner_pairUp] at hz hw
  simp only [Sole, Owned] at h ha hb
  grind

end Owners

/-! ### The invariant -/

/-- Open descriptors have different numbers, and every owned number is one of these and
owned by one object. -/
structure Exclusive (s : World) : Prop where
  numbers : ∀ i j d e, s.kernel.descs.get i = some d → s.kernel.descs.get j = some e →
    d.isOpen = true → e.isOpen = true → d.number = e.number → i = j
  held : ∀ n, Owned s.socks n →
    ∃ i d, s.kernel.descs.get i = some d ∧ d.isOpen = true ∧ d.number = n
  sole : Sole s.socks

/-- A new descriptor, and an object that owns it. -/
structure Opened (n : Int) (localPath : Option (List UInt8)) (s t : World) : Prop where
  free : s.kernel.lookup n = none
  owned : ∀ m, Owned t.socks m ↔ Owned s.socks m ∨ n = m
  addr : ∀ k, s.addr.Covered k → t.addr.Covered (k + 1)
  descs : t.kernel.descs = s.kernel.descs.push { number := n, localPath }
  files : t.kernel.files = s.kernel.files

/-- What an operation does to the descriptors and to the set of owned numbers. -/
inductive Change (pl : Platform) (s t : World) : Prop where
  /-- The same are owned; a descriptor may have been bound. -/
  | kept {fd : Int} (howned : ∀ n, Owned t.socks n ↔ Owned s.socks n)
      (haddr : ∀ k, s.addr.Covered k → t.addr.Covered k)
      (hkernel : s.kernel.Rebound fd t.kernel)
  | opened {n : Int} {localPath : Option (List UInt8)} (h : Opened n localPath s t)
  /-- A new descriptor is lost when the library does not start for its object. -/
  | lost {i : Nat} {d : Descriptor} {n : Int} {localPath : Option (List UInt8)}
      (hd : s.kernel.descs.get i = some d) (hopen : d.isOpen = true)
      (hfree : s.kernel.lookup n = none) (hlib : s.addr.lib.StartFails pl)
      (howned : ∀ m, Owned t.socks m ↔ Owned s.socks m)
      (hdescs : t.kernel.descs = s.kernel.descs.push { number := n, localPath })
      (hfiles : t.kernel.files = s.kernel.files)
  | released {n : Int} (hn : Owned s.socks n)
      (howned : ∀ m, Owned t.socks m ↔ Owned s.socks m ∧ m ≠ n) (haddr : t.addr = s.addr)
      (hdescs : t.kernel.descs = (s.kernel.hand n).descs)
      (hfiles : t.kernel.files = s.kernel.files)
  | closed {n : Int} {path : Option (List UInt8)} (hn : Owned s.socks n)
      (howned : ∀ m, Owned t.socks m ↔ Owned s.socks m ∧ m ≠ n)
      (haddr : ∀ k, s.addr.Covered (k + 1) → t.addr.Covered k)
      (hdescs : t.kernel.descs = (s.kernel.close n).descs)
      (hfiles : t.kernel.files = s.kernel.files.filter (fun f => some f ≠ path))

/-- An object that owns nothing hands out the number of an open descriptor. -/
def Stray (s : World) (op : SocketOp) (t : World) : Prop :=
  ∃ x v i, op = .socketFD x true ∧ s.socks.get x = some v ∧ v.m_validFD = false ∧
    s.kernel.lookup v.m_sockFD = some i ∧ (∀ m, Owned t.socks m ↔ Owned s.socks m) ∧
    t.addr = s.addr ∧ t.kernel.descs = (s.kernel.hand v.m_sockFD).descs ∧
    t.kernel.files = s.kernel.files

namespace Kernel

variable {k : Kernel} {n : Int} {i : Nat}

lemma get_hand (h : k.lookup n = some i) (j : Nat) :
    (k.hand n).descs.get j = if j = i then
      (k.descs.get j).map (fun d => { d with handed := d.handed + 1 }) else k.descs.get j := by
  unfold hand
  rw [h]
  exact Store.get_update _ _ _ _

lemma get_close (h : k.lookup n = some i) (j : Nat) :
    (k.close n).descs.get j = if j = i then
      (k.descs.get j).map (fun d => { d with isOpen := false, closes := d.closes + 1 })
      else k.descs.get j := by
  unfold close
  rw [h]
  exact Store.get_update _ _ _ _

lemma descs_hand_of_get (h : k.lookup n = some i) {d : Descriptor} (hd : k.descs.get i = some d) :
    (k.hand n).descs = k.descs.put i { d with handed := d.handed + 1 } := by
  unfold hand
  rw [h]
  simp [Store.update, hd]

lemma descs_close_of_get (h : k.lookup n = some i) {d : Descriptor} (hd : k.descs.get i = some d) :
    (k.close n).descs = k.descs.put i { d with isOpen := false, closes := d.closes + 1 } := by
  unfold close
  rw [h]
  simp [Store.update, hd]

lemma hand_of_lookup_none (h : k.lookup n = none) : k.hand n = k := by
  unfold hand
  rw [h]

@[simp] lemma files_hand (k : Kernel) (n : Int) : (k.hand n).files = k.files := by
  unfold hand
  split <;> rfl

@[simp] lemma calls_hand (k : Kernel) (n : Int) : (k.hand n).calls = k.calls := by
  unfold hand
  split <;> rfl

/-- Handing over is no system call. -/
lemma calls_hand_start (s : World) (n : Int) : ((SocketOp.start s).kernel.hand n).calls = [] :=
  calls_hand _ n

/-- Handing over does not depend on the record of calls. -/
lemma descs_hand (k : Kernel) (cs : List Call) (n : Int) :
    (({ k with calls := cs } : Kernel).hand n).descs = (k.hand n).descs := by
  have hl : ({ k with calls := cs } : Kernel).lookup n = k.lookup n := lookup_congr rfl
  simp only [hand, hl]
  cases k.lookup n <;> rfl

end Kernel

namespace Exclusive

variable {pl : Platform} {s t : World} {op : SocketOp}

lemma initial (b : Bool) (files : List (List UInt8)) : Exclusive (World.initial b files) := by
  constructor
  · intro i j d e hd
    cases hd
  · rintro n ⟨x, v, hx, -⟩
    cases hx
  · rintro x y n ⟨v, hx, -⟩
    cases hx

/-- An owned number is found. -/
lemma lookup (h : Exclusive s) {n : Int} (hn : Owned s.socks n) :
    ∃ i d, s.kernel.lookup n = some i ∧ s.kernel.descs.get i = some d ∧ d.isOpen = true ∧
      d.number = n := by
  obtain ⟨i, d, hd, hopen, hnum⟩ := h.held n hn
  cases hl : s.kernel.lookup n with
  | none => exact absurd hnum (Kernel.number_ne_of_lookup hl hd hopen)
  | some j =>
    obtain ⟨e, he, hopen', hnum'⟩ := Kernel.exists_of_lookup hl
    exact ⟨j, e, rfl, he, hopen', hnum'⟩

lemma not_owned (h : Exclusive s) {n : Int} (hfree : s.kernel.lookup n = none) :
    ¬Owned s.socks n := by
  intro hn
  obtain ⟨i, d, hl, -⟩ := h.lookup hn
  rw [hfree] at hl
  cases hl

lemma opened (h : Exclusive s) {n : Int} {localPath : Option (List UInt8)}
    (ho : Opened n localPath s t) (hsole : Sole t.socks) : Exclusive t := by
  have hnext := s.kernel.descs.get_next
  have hpush := s.kernel.descs.get_push { number := n, localPath }
  have hne := fun i e => Kernel.number_ne_of_lookup ho.free (i := i) (d := e)
  have howned := ho.owned
  have hdescs := ho.descs
  constructor <;> grind [Exclusive]

/-- What every change keeps. -/
lemma change (h : Exclusive s) (hc : Change pl s t) (hsole : Sole t.socks) : Exclusive t := by
  have hnext := s.kernel.descs.get_next
  cases hc with
  | kept howned _ hkernel =>
    rcases hkernel with ⟨hdescs, -⟩ | ⟨i, d, p, -, hd, -, -, hdescs, -⟩
    · constructor <;> grind [Exclusive]
    · have hput := Store.get_put hd { d with localPath := some p, boundPath := some p }
      constructor <;> grind [Exclusive]
  | opened ho => exact h.opened ho hsole
  | @lost i d n localPath _ _ hfree _ howned hdescs _ =>
    have hpush := s.kernel.descs.get_push { number := n, localPath }
    have hne := fun i e => Kernel.number_ne_of_lookup hfree (i := i) (d := e)
    constructor <;> grind [Exclusive]
  | released hn howned _ hdescs _ =>
    obtain ⟨i, d, hl, hd, hopen, hnum⟩ := h.lookup hn
    have hget := Kernel.get_hand hl
    constructor <;> grind [Exclusive]
  | closed hn howned _ hdescs _ =>
    obtain ⟨i, d, hl, hd, hopen, hnum⟩ := h.lookup hn
    have hget := Kernel.get_close hl
    constructor <;> grind [Exclusive]

lemma stray (h : Exclusive s) (hst : Stray s op t) (hsole : Sole t.socks) : Exclusive t := by
  obtain ⟨x, v, i, -, -, -, hl, howned, -, hdescs, -⟩ := hst
  obtain ⟨d, hd, -, -⟩ := Kernel.exists_of_lookup hl
  have hget := Kernel.get_hand hl
  constructor <;> grind [Exclusive]

end Exclusive

/-! ### Every operation is a change -/

section Effects

variable {pl : Platform} {s t : World} {op : SocketOp}

/-- A change that the descriptors do not take part in. -/
lemma Change.of_same (howned : ∀ n, Owned t.socks n ↔ Owned s.socks n) (haddr : t.addr = s.addr)
    (hdescs : t.kernel.descs = s.kernel.descs) (hfiles : t.kernel.files = s.kernel.files) :
    Change pl s t := by
  have hkernel : s.kernel.Rebound 0 t.kernel := Or.inl ⟨hdescs, hfiles⟩
  refine .kept howned (fun k hk => ?_) hkernel
  rw [haddr]
  exact hk

lemma Addresses.Covered.enter {a : Addresses} {k : Nat} (h : a.Covered k) :
    ({ a with lib := a.lib.enter } : Addresses).Covered (k + 1) := Library.Covers.enter h

lemma lookup_push_none {k : Kernel} {d : Descriptor} {n : Int} {files : List (List UInt8)}
    {cs : List Call} (hfree : k.lookup n = none) (hne : d.number ≠ n) :
    (⟨k.descs.push d, files, cs⟩ : Kernel).lookup n = none := by
  by_contra hsome
  obtain ⟨i, hi⟩ := Option.ne_none_iff_exists'.mp hsome
  obtain ⟨e, he, hopen, hnum⟩ := Kernel.exists_of_lookup hi
  rw [Store.get_push] at he
  split at he
  · cases he
    exact hne hnum
  · exact Kernel.number_ne_of_lookup hfree he hopen hnum

/-- Every operation is a single change, but for a pair of sockets, which is two, and for an
object that hands out what it does not own. -/
theorem Effect.changes (h : Exclusive s) (he : Effect pl s op t) :
    Sole t.socks ∧ (Change pl s t ∨
      (∃ u n m, Opened n none s u ∧ Opened m none u t ∧ Sole u.socks) ∨ Stray s op t) := by
  cases he with
  | created hfree hlib =>
    refine ⟨h.sole.push (h.not_owned hfree), Or.inl (.opened ⟨hfree, fun m => ?_,
      fun k hk => hk.enter, rfl, rfl⟩)⟩
    rw [owned_push]
    simp
  | notCreated hl hcs =>
    refine ⟨h.sole, Or.inl ?_⟩
    refine .kept (fun _ => Iff.rfl) (fun k hk => ?_) (Or.inl ⟨rfl, rfl⟩ : s.kernel.Rebound 0 _)
    rcases hl with hl | rfl
    · exact hl.covers hk
    · exact hk.enter.mono (Nat.le_succ k)
  | accepted hx hi hd hfree hlib =>
    refine ⟨h.sole.push (h.not_owned hfree), Or.inl (.opened ⟨hfree, fun m => ?_,
      fun k hk => hk.enter, rfl, rfl⟩)⟩
    rw [owned_push]
    simp
  | lost hx hi hd hfree hlib hl =>
    refine ⟨h.sole, Or.inl ?_⟩
    obtain ⟨e, he, hopen, -⟩ := Kernel.exists_of_lookup hi
    exact .lost he hopen hfree hlib (fun _ => Iff.rfl) rfl rfl
  | notAccepted hx => exact ⟨h.sole, Or.inl (.of_same (fun _ => Iff.rfl) rfl rfl rfl)⟩
  | @paired ty protocol fd0 fd1 junk junk' cs hfree0 hfree1 hne hcs =>
    have hn0 := h.not_owned hfree0
    have hn1 := h.not_owned hfree1
    refine ⟨h.sole.pairUp hn0 hn1 hne _ _, Or.inr (Or.inl ?_)⟩
    let a : Socket := ⟨true, fd0, pl.domainOf .unix, ty, protocol⟩
    let u : World := ⟨{ s.addr with lib := s.addr.lib.enter }, s.socks.push a,
      ⟨s.kernel.descs.push { number := fd0 }, s.kernel.files, cs⟩⟩
    have howned : ∀ m, Owned u.socks m ↔ Owned s.socks m ∨ fd0 = m := by
      intro m
      rw [owned_push]
      simp [a]
    refine ⟨u, fd0, fd1, ⟨hfree0, howned, fun k hk => hk.enter, rfl, rfl⟩, ?_, h.sole.push hn0⟩
    refine ⟨?_, fun m => ?_, fun k hk => hk.enter, rfl, rfl⟩
    · exact lookup_push_none hfree1 hne
    · rw [owned_pairUp]
      simp [u, a]
  | notPaired hcs => exact ⟨h.sole, Or.inl (.of_same (fun _ => Iff.rfl) rfl rfl rfl)⟩
  | moved hy =>
    refine ⟨h.sole.move hy rfl, Or.inl ?_⟩
    exact .of_same (fun _ => owned_move hy rfl) rfl rfl rfl
  | exchanged hop hx hy hsocks =>
    refine ⟨h.sole.exchange hx hy hsocks, Or.inl ?_⟩
    exact .of_same (fun _ => owned_exchange hx hy hsocks) rfl rfl rfl
  | peeked => exact ⟨h.sole, Or.inl (.of_same (fun _ => Iff.rfl) rfl rfl rfl)⟩
  | @released x v hx =>
    refine ⟨h.sole.disown hx rfl, ?_⟩
    have hdescs := Kernel.descs_hand s.kernel [] v.m_sockFD
    have hfiles := Kernel.files_hand (SocketOp.start s).kernel v.m_sockFD
    cases hv : v.m_validFD with
    | true =>
      have hn : Owned s.socks v.m_sockFD := ⟨x, v, hx, hv, rfl⟩
      refine Or.inl (.released hn (fun m => ?_) rfl hdescs hfiles)
      exact owned_without h.sole hx hv fun _ _ => owner_disown hx rfl
    | false =>
      have howned : ∀ m, Owned (s.socks.put x { v with m_validFD := false }) m ↔ Owned s.socks m :=
        fun m => owned_without_invalid hx hv fun _ _ => owner_disown hx rfl
      cases hl : s.kernel.lookup v.m_sockFD with
      | none =>
        refine Or.inl (.of_same howned rfl ?_ hfiles)
        exact hdescs.trans (by rw [Kernel.hand_of_lookup_none hl])
      | some i => exact Or.inr (Or.inr ⟨x, v, i, rfl, hx, hv, hl, howned, rfl, hdescs, hfiles⟩)
  | forgotten hx hv =>
    refine ⟨h.sole.erase, Or.inl ?_⟩
    exact .of_same (fun _ => owned_without_invalid hx hv fun _ _ => owner_erase) rfl rfl rfl
  | @closed x v name t hx hv hc =>
    have hsocks : t.socks = s.socks.erase x := hc.socks
    rw [hsocks]
    refine ⟨h.sole.erase, Or.inl ?_⟩
    refine .closed ⟨x, v, hx, hv, rfl⟩ (fun m => ?_) (fun k hk => hc.covered hk) hc.descs_eq
      hc.files
    rw [hsocks]
    exact owned_without h.sole hx hv fun _ _ => owner_erase
  | served hx hs =>
    have hsocks : t.socks = s.socks := hs.socks
    rw [hsocks]
    refine ⟨h.sole, Or.inl ?_⟩
    exact .kept (fun _ => by rw [hsocks]) hs.addr.covered hs.kernel

/-- Every operation keeps the invariant. -/
theorem Exclusive.effect (h : Exclusive s) (he : Effect pl s op t) : Exclusive t := by
  obtain ⟨hsole, hc | ⟨u, n, m, hsu, hut, hu⟩ | hstray⟩ := he.changes h
  · exact h.change hc hsole
  · exact (h.opened hsu hu).opened hut hsole
  · exact h.stray hstray hsole

end Effects

end SockLib
