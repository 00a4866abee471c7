import SockLib.Model.NumericHost
import SockLib.Proofs.Decoding
import SockLib.Proofs.SocketRules

/-!
# Destruction of sockets

The destructor asks for the local address before it closes the descriptor, and casts it to a unix
address afterwards. Both throw, and no exception may leave a destructor.
-/

namespace SockLib

variable (pl : Platform)

/-- What the destructor owes: the descriptor is closed once, and one user leaves the library. -/
structure Destroyed (v : Socket) (s t : World) : Prop where
  calls : t.kernel.calls.count (.close v.m_sockFD) = s.kernel.calls.count (.close v.m_sockFD) + 1
  descs : t.kernel.descs = (s.kernel.close v.m_sockFD).descs
  users : t.addr.lib.libraryUsers = s.addr.lib.leave.libraryUsers

/-- The destructor returns, having done what it owes. -/
def DestructionCompletes (s : World) (x : Nat) (v : Socket) (name : NameAnswer) : Prop :=
  ∃ t, World.destroy pl x name s = .ok () t ∧ Destroyed v s t

/-- The condition. On POSIX, `getsockname` succeeds with a family that has a class, which is the
class of unix addresses where the socket has that domain, and with an address that can be printed
or is a name inside the storage; on Windows, the system library is cleaned up if it has to be. -/
def Destructible (s : World) (v : Socket) (name : NameAnswer) : Prop :=
  if pl.windows = true then ¬s.addr.lib.CleanupFails pl
  else ∃ st len f, name = .ok (st, len) ∧ pl.familyOf (ssFamily pl st) = some f ∧
    Printable pl st f ∧ InStorage st len f ∧ (v.m_domain = pl.domainOf .unix → f = .unix)

variable {pl} {s t : World} {x : Nat} {v : Socket} {name : NameAnswer}

lemma libraryWorks_of_posix (hw : pl.windows = false) : pl.LibraryWorks := by
  intro h
  rw [hw] at h
  cases h

/-- A user that comes and goes is not counted. -/
lemma Library.users_leave_enter (l : Library) :
    l.enter.leave.leave.libraryUsers = l.leave.libraryUsers := by
  by_cases hauto : l.autoInitialize = true
  · simp [Library.enter, Library.leave, sizeDec, hauto]
  · simp [Library.enter, Library.leave, hauto]

lemma Closed.destroyed (h : Closed pl x v name s t) : Destroyed v s t where
  descs := h.descs
  users := by
    rw [h.lib]
    split
    · rfl
    · exact s.addr.lib.users_leave_enter
  calls := by
    have hpath : (((unlinkedPath pl v name).map Call.unlink).toList).count
        (.close v.m_sockFD) = 0 := by
      rw [List.count_eq_zero]
      intro hmem
      obtain ⟨p, -, hp⟩ := Option.map_eq_some_iff.mp (Option.mem_toList.mp hmem)
      cases hp
    have hrelease : (releaseCalls pl v.m_sockFD).count (.close v.m_sockFD) = 1 := by
      unfold releaseCalls
      split <;> simp
    rw [h.calls, List.count_append, List.count_append, hpath, hrelease]
    omega

namespace World

/-! ### The destructor returns -/

lemma destroy_returns_posix (hw : pl.windows = false) (hx : s.socks.get x = some v)
    (hv : v.m_validFD = true) {st : SockaddrStorage} {len : Nat} {f : Family}
    (hf : pl.familyOf (ssFamily pl st) = some f) (hprint : Printable pl st f)
    (hin : InStorage st len f) (hunix : v.m_domain = pl.domainOf .unix → f = .unix) :
    Prog.wp (destroy pl x (.ok (st, len))) (fun _ _ => True) (fun _ _ => False)
      (fun _ => False) s := by
  obtain ⟨o, ho⟩ := exists_ofStorage_ok_iff.mpr ⟨hprint, hin⟩
  have hdec : decode pl st len = some (.ok o) := by
    rw [decode, hf]
    exact ho
  obtain rfl : o.family = f := ofStorage_family ho
  refine (wp_destroy_posix hw hx hv).mpr ⟨?_, fun _ h => by cases h⟩
  rintro _ _ ⟨⟩
  obtain ⟨hfam, hok⟩ := ofStorage_of_decode_ok (s := s.addr) (libraryWorks_of_posix hw) hdec
  refine Prog.wp_of_eq_ok hok ?_
  have hvar := s.addr.vars.get_push_self ⟨ssFamily pl st, some s.addr.heap.next⟩
  have hheap := s.addr.heap.get_push_self o
  by_cases hd : v.m_domain = pl.domainOf .unix
  · rw [if_pos hd, Prog.wp_bind]
    rw [hunix hd] at hfam
    refine unlinkLocal_spec hw (by exact hvar) rfl (by exact hheap) s.addr.lib.leave_enter_enter
      (fun hne => hne hfam) (fun _ hne => hne (hunix hd)) ?_
    intro u _ _
    exact depart_spec hw (by exact hvar) rfl (erase_copy s.addr.heap o).1 trivial
  · rw [if_neg hd]
    exact depart_spec hw (by exact hvar) rfl (by exact hheap) trivial

/-- Where the condition holds the destructor returns. -/
lemma destroy_returns (hx : s.socks.get x = some v) (hv : v.m_validFD = true)
    (hd : Destructible pl s v name) :
    Prog.wp (destroy pl x name) (fun _ _ => True) (fun _ _ => False) (fun _ => False) s := by
  unfold Destructible at hd
  split at hd
  · exact (wp_destroy_windows ‹_› hx hv).mpr ⟨fun hc => hd hc, fun _ => trivial⟩
  · obtain ⟨st, len, f, rfl, hf, hprint, hin, hunix⟩ := hd
    exact destroy_returns_posix (Bool.eq_false_iff.mpr ‹_›) hx hv hf hprint hin hunix

/-- A destructor that returns has done what it owes. -/
lemma destroyed_of_ok (hx : s.socks.get x = some v) (hv : v.m_validFD = true)
    (ht : destroy pl x name s = .ok () t) : Destroyed v s t := by
  have hclosed := destroy_closed pl hx hv name
  rw [Prog.wp, ht] at hclosed
  exact hclosed.destroyed

/-! ### The program ends -/

/-- Where the condition is missed the destructor does not return. -/
lemma destroy_ends (hx : s.socks.get x = some v) (hv : v.m_validFD = true)
    (hno : ¬Destructible pl s v name) :
    Prog.wp (destroy pl x name) (fun _ _ => False) (fun _ _ => True) (fun _ => True) s := by
  cases hw : pl.windows with
  | true =>
    rw [Destructible, if_pos hw, not_not] at hno
    exact (wp_destroy_windows hw hx hv).mpr ⟨fun _ => trivial, fun hc => absurd hno hc⟩
  | false =>
    rw [Destructible, hw, if_neg Bool.false_ne_true] at hno
    refine (wp_destroy_posix hw hx hv).mpr ⟨?_, fun _ _ => trivial⟩
    rintro st len rfl
    apply Addresses.ofStorage_made
    intro f o hf ho _
    obtain ⟨hprint, hin⟩ := exists_ofStorage_ok_iff.mp ⟨o, ho⟩
    have hd : v.m_domain = pl.domainOf .unix := by
      by_contra hne
      exact hno ⟨st, len, f, rfl, hf, hprint, hin, fun h => absurd h hne⟩
    have hfam : ssFamily pl st ≠ pl.domainOf .unix := by
      intro heq
      have hunix : f = .unix := by
        rw [heq, Platform.familyOf_domainOf] at hf
        exact (Option.some.inj hf).symm
      exact hno ⟨st, len, f, rfl, hf, hprint, hin, fun _ => hunix⟩
    rw [if_pos hd, Prog.wp_bind]
    refine unlinkLocal_spec hw (by exact s.addr.vars.get_push_self _) rfl
      (by exact s.addr.heap.get_push_self o) s.addr.lib.leave_enter_enter (fun _ => trivial)
      (fun _ _ => trivial) ?_
    intro _ _ heq
    exact absurd heq hfam

end World

/-- Destroying a socket that owns a descriptor completes exactly when the condition holds. -/
theorem destruction_completes_iff (s : World) (x : Nat) (v : Socket) (name : NameAnswer)
    (hx : s.socks.get x = some v) (hv : v.m_validFD = true) :
    DestructionCompletes pl s x v name ↔ Destructible pl s v name := by
  constructor
  · rintro ⟨t, ht, -⟩
    by_contra hno
    have hends := World.destroy_ends hx hv hno
    rw [Prog.wp, ht] at hends
    exact hends
  · intro hd
    obtain ⟨_, t, ht, -⟩ := Prog.exists_ok_of_wp (World.destroy_returns hx hv hd)
    exact ⟨t, ht, World.destroyed_of_ok hx hv ht⟩

/-- A unix socket that is bound to a pathname. -/
def unixSocket : World where
  addr := ⟨{ libraryUsers := 1, startups := 1 }, Store.empty, Store.empty⟩
  socks := Store.empty.push ⟨true, 3, 1, 1, 0⟩
  kernel := { Kernel.initial [bytes "/a"] with
    descs := Store.empty.push
      { number := 3, localPath := some (bytes "/a"), boundPath := some (bytes "/a") } }

set_option maxRecDepth 2000 in
/-- The pathname is reported, and the destructor completes. -/
theorem destruction_completes_iff_linux :
    DestructionCompletes linuxHost unixSocket 0 ⟨true, 3, 1, 1, 0⟩ (.ok (pathStorage, 5)) :=
  (destruction_completes_iff unixSocket 0 _ _ rfl rfl).mpr
    ⟨pathStorage, 5, .unix, rfl, rfl, trivial, fun _ => Or.inl (by decide), fun _ => rfl⟩

/-- A failure of `getsockname` ends the program. -/
theorem destruction_does_not_complete : ¬∀ (s : World) (x : Nat) (v : Socket) (name : NameAnswer),
    s.socks.get x = some v → v.m_validFD = true → DestructionCompletes linuxHost s x v name := by
  intro h
  obtain ⟨t, ht, -⟩ := h unixSocket 0 ⟨true, 3, 1, 1, 0⟩ (.error 105) rfl rfl
  cases ht

end SockLib
