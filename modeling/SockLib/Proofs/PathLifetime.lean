import SockLib.Model.NumericHost
import SockLib.Proofs.Descriptors

/-!
# The lifetime of bound pathnames

A bound unix socket should keep its pathname for as long as an object owns it. The
destructor removes the pathname that `getsockname` reports, and an accepted socket reports
the pathname of its listener.
-/

namespace SockLib

variable (pl : Platform)

/-- The pathname of a descriptor that a live object owns is there, and the last operation has
not removed it. -/
def PathsKept (s : World) : Prop :=
  ∀ x i d p, s.kernel.descs.get i = some d → d.isOpen = true → Owner s.socks x d.number →
    d.boundPath = some p → p ∈ s.kernel.files ∧ Call.unlink p ∉ s.kernel.calls

/-- The condition on a single operation: a unix socket that has not been bound itself, but
has the pathname of a listener as its local address, is destroyed only when no live object
owns a descriptor bound to this pathname. -/
def SparesListener (s : World) : SocketOp → Prop
  | .destroy x _ => pl.windows = true ∨ ∀ v i d p, s.socks.get x = some v →
    v.m_validFD = true → v.m_domain = pl.domainOf .unix → s.kernel.lookup v.m_sockFD = some i →
    s.kernel.descs.get i = some d → d.localPath = some p → d.boundPath = none →
    ∀ y j e, s.kernel.descs.get j = some e → e.isOpen = true → Owner s.socks y e.number →
      e.boundPath ≠ some p
  | _ => True

/-- The invariant about pathnames. -/
structure Bound (s : World) : Prop extends Exclusive s where
  reported : ∀ i d p, s.kernel.descs.get i = some d → d.boundPath = some p →
    d.localPath = some p
  present : ∀ i d p, s.kernel.descs.get i = some d → d.isOpen = true →
    Owned s.socks d.number → d.boundPath = some p → p ∈ s.kernel.files
  apart : ∀ i j d e p, s.kernel.descs.get i = some d → s.kernel.descs.get j = some e →
    d.isOpen = true → e.isOpen = true → Owned s.socks d.number → Owned s.socks e.number →
    d.boundPath = some p → e.boundPath = some p → i = j

namespace Bound

variable {pl} {s t : World} {op : SocketOp}

lemma initial (b : Bool) (files : List (List UInt8)) : Bound (World.initial b files) := by
  refine ⟨Exclusive.initial b files, ?_, ?_, ?_⟩
  · intro i d p hd
    cases hd
  · intro i d p hd
    cases hd
  · intro i j d e p hd
    cases hd

/-- Descriptors that have been bound before and are still owned, as long as their pathnames
are still there, are all that matters. -/
lemma transfer (h : Bound s) (hexcl : Exclusive t)
    (hfrom : ∀ i d p, t.kernel.descs.get i = some d → d.boundPath = some p →
      ∃ c, s.kernel.descs.get i = some c ∧ c.boundPath = some p ∧ d.localPath = c.localPath ∧
        (d.isOpen = true → Owned t.socks d.number → c.isOpen = true ∧ Owned s.socks c.number ∧
          (p ∈ s.kernel.files → p ∈ t.kernel.files))) : Bound t := by
  refine ⟨hexcl, ?_, ?_, ?_⟩
  · intro i d p hd hp
    obtain ⟨c, hc, hcp, hlocal, -⟩ := hfrom i d p hd hp
    rw [hlocal]
    exact h.reported i c p hc hcp
  · intro i d p hd hopen hn hp
    obtain ⟨c, hc, hcp, -, hkeep⟩ := hfrom i d p hd hp
    obtain ⟨hopen', hn', hmem⟩ := hkeep hopen hn
    exact hmem (h.present i c p hc hopen' hn' hcp)
  · intro i j d e p hd he hopen hopen' hn hn' hp hp'
    obtain ⟨c, hc, hcp, -, hkeep⟩ := hfrom i d p hd hp
    obtain ⟨c', hc', hcp', -, hkeep'⟩ := hfrom j e p he hp'
    obtain ⟨h1, h2, -⟩ := hkeep hopen hn
    obtain ⟨h3, h4, -⟩ := hkeep' hopen' hn'
    exact h.apart i j c c' p hc hc' h1 h3 h2 h4 hcp hcp'

lemma opened (h : Bound s) {n : Int} {localPath : Option (List UInt8)}
    (ho : Opened n localPath s t) (hsole : Sole t.socks) : Bound t := by
  apply h.transfer (h.toExclusive.opened ho hsole)
  intro i d p hd hp
  rw [ho.descs, Store.get_push] at hd
  split at hd
  · cases hd
    cases hp
  · have hne := Kernel.number_ne_of_lookup ho.free hd
    have howned := ho.owned d.number
    have hfiles := ho.files
    exact ⟨d, hd, hp, rfl, by grind⟩

/-- Binding makes a pathname that was not there, so that of no other owned descriptor. -/
lemma rebound (h : Bound s) (hexcl : Exclusive t) {fd : Int}
    (howned : ∀ n, Owned t.socks n ↔ Owned s.socks n) (hk : s.kernel.Rebound fd t.kernel) :
    Bound t := by
  rcases hk with ⟨hdescs, hfiles⟩ | ⟨k, c, q, -, hc, hlocal, hnew, hdescs, hfiles⟩
  · apply h.transfer hexcl
    intro i d p hd hp
    rw [hdescs] at hd
    exact ⟨d, hd, hp, rfl, by grind⟩
  · have hput := Store.get_put hc { c with localPath := some q, boundPath := some q }
    have hreported := h.reported
    have hpresent := h.present
    have hapart := h.apart
    refine ⟨hexcl, ?_, ?_, ?_⟩
    · intro i d p hd hp
      grind
    · intro i d p hd hopen hn hp
      grind
    · intro i j d e p hd he hopen hopen' hn hn' hp hp'
      grind

/-- A change keeps the invariant if it removes no pathname of a descriptor that is still owned. -/
lemma change (h : Bound s) (hc : Change pl s t) (hsole : Sole t.socks)
    (hspare : ∀ i d p, s.kernel.descs.get i = some d → d.isOpen = true →
      Owned t.socks d.number → d.boundPath = some p → p ∈ s.kernel.files →
      p ∈ t.kernel.files) : Bound t := by
  have hexcl := h.toExclusive.change hc hsole
  cases hc with
  | opened ho => exact h.opened ho hsole
  | kept howned _ hkernel => exact h.rebound hexcl howned hkernel
  | lost _ _ hfree _ howned hdescs hfiles =>
    apply h.transfer hexcl
    intro i d p hd hp
    rw [hdescs, Store.get_push] at hd
    split at hd
    · cases hd
      cases hp
    · exact ⟨d, hd, hp, rfl, by grind⟩
  | released hn howned _ hdescs hfiles =>
    obtain ⟨k, c, hl, hc, -, -⟩ := h.lookup hn
    have hget := Kernel.get_hand hl
    apply h.transfer hexcl
    intro i d p hd hp
    grind
  | closed hn howned _ hdescs hfiles =>
    obtain ⟨k, c, hl, hc, -, -⟩ := h.lookup hn
    have hget := Kernel.get_close hl
    apply h.transfer hexcl
    intro i d p hd hp
    grind

lemma stray (h : Bound s) (hst : Stray s op t) (hsole : Sole t.socks) : Bound t := by
  have hexcl := h.toExclusive.stray hst hsole
  obtain ⟨x, v, k, -, -, -, hl, howned, -, hdescs, hfiles⟩ := hst
  obtain ⟨c, hc, -, -⟩ := Kernel.exists_of_lookup hl
  apply h.transfer hexcl
  intro i d p hd hp
  rw [hdescs, Kernel.get_hand hl] at hd
  split at hd
  · subst i
    rw [hc] at hd
    cases hd
    exact ⟨c, hc, hp, rfl, by grind⟩
  · exact ⟨d, hd, hp, rfl, by grind⟩

end Bound

/-! ### What a destructor unlinks -/

section Unlinking

variable {pl} {s t : World} {op : SocketOp} {v : Socket}

lemma length_slice_le {n : Nat} (m : Memory n) (off len : Nat) :
    (m.slice off len).length ≤ n - off := by
  simp only [Memory.slice, List.length_take, List.length_drop, List.Vector.toList_length]
  omega

lemma exists_first (st : SockaddrStorage) : ∃ b, st.slice 2 1 = [b] :=
  List.length_eq_one_iff.mp (st.length_slice (by decide))

/-- The pathname in an address with its NUL is what the library reads out of it. -/
lemma unixAddress_of_kernelPath {st : SockaddrStorage} {len : Nat} {p : List UInt8}
    (hp : kernelPath pl st len = some p) (hlen : len = p.length + 3) :
    UnixAddress.ofSockaddrUn st len = some ⟨p⟩ ∧ p ≠ [] ∧ (0 : UInt8) ∉ p := by
  unfold kernelPath at hp
  split at hp
  · rename_i hcond
    obtain ⟨-, -, hfirst⟩ := hcond
    have hp := Option.some.inj hp
    obtain ⟨b, hb⟩ := exists_first st
    have hb0 : b ≠ 0 := by
      rintro rfl
      exact hfirst hb
    have hlen' : len - 2 = 1 + p.length := by omega
    rw [hlen'] at hp
    have hne : p ≠ [] := by
      rw [← hp, Memory.slice_add, hb, cStr]
      simp [hb0]
    have hprefix : p = st.slice 2 p.length := by
      have htake := List.takeWhile_prefix (· ≠ 0) (l := st.slice 2 (1 + p.length))
      change cStr _ <+: _ at htake
      rw [hp, List.prefix_iff_eq_take, Memory.slice, List.take_take] at htake
      rw [Memory.slice]
      simpa using htake
    have hbound : 2 + p.length ≤ 128 := by
      have hle := length_slice_le st 2 p.length
      rw [← hprefix] at hle
      omega
    refine ⟨?_, hne, ?_⟩
    · have hpos := List.length_pos_iff.mpr hne
      have hlong : 2 + 1 < len := by omega
      have hrest : len - 2 - 1 = p.length := by omega
      simp [UnixAddress.ofSockaddrUn, Memory.load, hlong, hb, hb0, hrest, hbound, ← hprefix]
    · rw [← hp]
      exact zero_notMem_cStr _
  · cases hp

lemma family_of_kernelPath {st : SockaddrStorage} {len : Nat} {p : List UInt8}
    (hp : kernelPath pl st len = some p) : ssFamily pl st = pl.domainOf .unix := by
  unfold kernelPath at hp
  split at hp
  · rename_i hcond
    exact hcond.1
  · cases hp

/-- An address without a pathname is not a named one for the library. -/
lemma not_named_of_kernelPath {st : SockaddrStorage} {len : Nat} {a : UnixAddress}
    (hp : kernelPath pl st len = none) (hfam : ssFamily pl st = pl.domainOf .unix)
    (ha : UnixAddress.ofSockaddrUn st len = some a) : a.named = false := by
  have hcond : ¬(2 < len ∧ st.slice 2 1 ≠ [0]) := by
    intro hcond
    rw [kernelPath, if_pos ⟨hfam, hcond⟩] at hp
    cases hp
  obtain ⟨b, hb⟩ := exists_first st
  rw [hb] at hcond
  by_cases hlen : 2 < len
  · have hb0 : b = 0 := by
      by_contra hne
      exact hcond ⟨hlen, by simpa using hne⟩
    subst hb0
    have hload : a.m_addr = st.slice 2 (len - 2) := by
      unfold UnixAddress.ofSockaddrUn at ha
      by_cases hin : 2 + (len - 2) ≤ 128
      · by_cases hlong : 2 + 1 < len
        · simp [Memory.load, hb, hlen, hlong, hin] at ha
          rw [← ha]
        · simp [Memory.load, hlen, hlong, hin] at ha
          rw [← ha]
      · by_cases hlong : 2 + 1 < len
        · simp [Memory.load, hb, hlen, hlong, hin] at ha
        · simp [Memory.load, hlen, hlong, hin] at ha
    have hsplit : len - 2 = 1 + (len - 3) := by omega
    rw [hsplit, Memory.slice_add, hb] at hload
    simp [UnixAddress.named, hload]
  · have hempty : a = ⟨[]⟩ := by
      have hshort : ¬2 + 1 < len := by omega
      simp [UnixAddress.ofSockaddrUn, hlen, hshort] at ha
      exact ha.symm
    rw [hempty]
    rfl

/-- A destructor that is told the local address unlinks its pathname. -/
lemma unlinkedPath_of_answers {k : Kernel} {n : Int} {name : NameAnswer} {i : Nat}
    {d : Descriptor} (ha : SocketOp.answersName pl k n name = true) (hi : k.lookup n = some i)
    (hd : k.descs.get i = some d) (hw : pl.windows = false)
    (hdom : v.m_domain = pl.domainOf .unix) : unlinkedPath pl v name = d.localPath := by
  cases name with
  | error errno => cases ha
  | ok sa =>
    obtain ⟨st, len⟩ := sa
    simp only [SocketOp.answersName, hi, Option.bind_some, hd, Bool.and_eq_true,
      decide_eq_true_eq] at ha
    obtain ⟨hpath, hlen⟩ := ha
    rw [unlinkedPath]
    cases hp : d.localPath with
    | none =>
      rw [hp] at hpath
      split
      · rename_i hcond
        cases ho : UnixAddress.ofSockaddrUn st len with
        | none => rfl
        | some a =>
          have hnamed := not_named_of_kernelPath hpath hcond.2.2 ho
          simp [hnamed]
      · rfl
    | some p =>
      rw [hp] at hpath hlen
      simp only [Option.all_some, decide_eq_true_eq] at hlen
      obtain ⟨ho, hne, h0⟩ := unixAddress_of_kernelPath hpath hlen
      rw [if_pos ⟨hw, hdom, family_of_kernelPath hpath⟩, ho]
      have hnamed : (UnixAddress.mk p).named = true := by
        obtain ⟨c, p', rfl⟩ := List.exists_cons_of_ne_nil hne
        have hc : c ≠ 0 := fun hc => h0 (hc ▸ List.mem_cons_self)
        simp [UnixAddress.named, hc]
      have hname : cStr (UnixAddress.mk p).name = p := by
        rw [UnixAddress.name, if_pos hnamed]
        exact cStr_of_notMem h0
      simp [hnamed, hname]

variable (pl) in
/-- The operation is a destructor that unlinks this pathname. -/
def Unlinks (s : World) (op : SocketOp) (p : List UInt8) : Prop :=
  ∃ x v name, op = .destroy x name ∧ s.socks.get x = some v ∧ v.m_validFD = true ∧
    unlinkedPath pl v name = some p

/-- Nothing but a destructor removes a pathname. -/
lemma Effect.mem_files (he : Effect pl s op t) {p : List UInt8} (hp : p ∈ s.kernel.files)
    (hno : ¬Unlinks pl s op p) : p ∈ t.kernel.files := by
  cases he with
  | @released x v hx =>
    have hfiles := Kernel.files_hand (SocketOp.start s).kernel v.m_sockFD
    rw [hfiles]
    exact hp
  | @closed x v name t hx hv h =>
    rw [h.files]
    refine List.mem_filter.mpr ⟨hp, ?_⟩
    simp only [decide_eq_true_eq]
    intro heq
    exact hno ⟨x, v, name, rfl, hx, hv, heq.symm⟩
  | served hx h =>
    rcases h.kernel with ⟨-, hfiles⟩ | ⟨_, _, q, -, -, -, -, -, hfiles⟩
    · rw [hfiles]
      exact hp
    · rw [hfiles]
      exact List.mem_cons_of_mem q hp
  | _ => exact hp

lemma Effect.mem_calls (he : Effect pl s op t) {p : List UInt8}
    (hp : Call.unlink p ∈ t.kernel.calls) : Unlinks pl s op p := by
  cases he with
  | notCreated _ hcs => cases hcs _ hp
  | paired _ _ _ hcs => cases hcs _ hp
  | notPaired hcs => cases hcs _ hp
  | @released x v hx =>
    rw [Kernel.calls_hand_start] at hp
    cases hp
  | @closed x v name t hx hv h =>
    obtain ⟨q, hq, heq⟩ | hdesc := h.of_mem_calls hp
    · cases heq
      exact ⟨x, v, name, rfl, hx, hv, hq⟩
    · cases hdesc
  | served hx h => cases h.of_mem_calls hp
  | _ => simp [SocketOp.start] at hp

/-- What the destructor unlinks is the local pathname of the descriptor of its object. -/
lemma Unlinks.local_ (h : Exclusive s) (ha : SocketOp.answered pl s op = true) {p : List UInt8}
    (hu : Unlinks pl s op p) :
    ∃ x v name i d, op = .destroy x name ∧ s.socks.get x = some v ∧ v.m_validFD = true ∧
      pl.windows = false ∧ v.m_domain = pl.domainOf .unix ∧
      s.kernel.lookup v.m_sockFD = some i ∧ s.kernel.descs.get i = some d ∧ d.isOpen = true ∧
      d.number = v.m_sockFD ∧ d.localPath = some p := by
  obtain ⟨x, v, name, rfl, hx, hv, hpath⟩ := hu
  obtain ⟨hw, hdom⟩ : pl.windows = false ∧ v.m_domain = pl.domainOf .unix := by
    unfold unlinkedPath at hpath
    split at hpath
    · split at hpath
      · rename_i hcond
        exact ⟨hcond.1, hcond.2.1⟩
      · cases hpath
    · cases hpath
  obtain ⟨i, d, hl, hd, hopen, hnum⟩ := h.lookup ⟨x, v, hx, hv, rfl⟩
  have hname : SocketOp.answersName pl s.kernel v.m_sockFD name = true := by
    simpa [SocketOp.answered, hx, hv] using ha
  rw [unlinkedPath_of_answers hname hl hd hw hdom] at hpath
  exact ⟨x, v, name, i, d, rfl, hx, hv, hw, hdom, hl, hd, hopen, hnum, hpath⟩

/-- A destructor that meets its condition unlinks no pathname that is still owned. -/
lemma Bound.spared (h : Bound s) (he : Effect pl s op t) (ha : SocketOp.answered pl s op = true)
    (hg : SparesListener pl s op) {p : List UInt8} (hu : Unlinks pl s op p) {i : Nat}
    {d : Descriptor} (hd : s.kernel.descs.get i = some d) (hopen : d.isOpen = true)
    (hn : Owned t.socks d.number) : d.boundPath ≠ some p := by
  intro hp
  obtain ⟨x, v, name, j, e, rfl, hx, hv, hw, hdom, hl, he', hopen', hnum, hlocal⟩ :=
    hu.local_ h.toExclusive ha
  rw [(he.destroyed hx hv).socks] at hn
  obtain ⟨⟨y, hy⟩, hne⟩ := (owned_without h.sole hx hv fun _ _ => owner_erase).mp hn
  cases hb : e.boundPath with
  | none =>
    rcases hg with hwin | hg
    · rw [hw] at hwin
      cases hwin
    · exact hg v j e p hx hv hdom hl he' hlocal hb y i d hd hopen hy hp
  | some q =>
    have hq := h.reported j e q he' hb
    rw [hlocal] at hq
    cases hq
    have hij := h.apart i j d e p hd he' hopen hopen' ⟨y, hy⟩
      ⟨x, v, hx, hv, hnum.symm⟩ hp hb
    subst hij
    rw [hd] at he'
    cases he'
    exact hne hnum

/-- The invariant of a run: also, the last operation has unlinked no pathname that is owned. -/
structure Quiet (s : World) : Prop extends Bound s where
  calls : ∀ i d p, s.kernel.descs.get i = some d → d.isOpen = true →
    Owned s.socks d.number → d.boundPath = some p → Call.unlink p ∉ s.kernel.calls

lemma Quiet.pathsKept (h : Quiet s) : PathsKept s := by
  intro x i d p hd hopen hx hp
  exact ⟨h.present i d p hd hopen ⟨x, hx⟩ hp, h.calls i d p hd hopen ⟨x, hx⟩ hp⟩

/-- What is open after a destructor was open before. -/
lemma get_of_unlinks (h : Exclusive s) (he : Effect pl s op t) {p : List UInt8}
    (hu : Unlinks pl s op p) {i : Nat} {d : Descriptor} (hd : t.kernel.descs.get i = some d)
    (hopen : d.isOpen = true) : s.kernel.descs.get i = some d := by
  obtain ⟨x, v, name, rfl, hx, hv, -⟩ := hu
  obtain ⟨j, e, hl, -, -, -⟩ := h.lookup ⟨x, v, hx, hv, rfl⟩
  rw [(he.destroyed hx hv).descs_eq, Kernel.get_close hl] at hd
  split at hd
  · obtain ⟨e', -, rfl⟩ := Option.map_eq_some_iff.mp hd
    cases hopen
  · exact hd

lemma Quiet.step (h : Quiet s) (hg : SparesListener pl s op)
    (hs : SocketOp.answeredStep pl s op = some t) : Quiet t := by
  unfold SocketOp.answeredStep at hs
  split at hs
  · rename_i ha
    have he := step_effect hs
    have hspared := fun p (hu : Unlinks pl s op p) i d =>
      h.toBound.spared (d := d) (i := i) he ha hg hu
    have hbound : Bound t := by
      obtain ⟨hsole, hc | ⟨u, n, m, hsu, hut, hu⟩ | hstray⟩ := he.changes h.toExclusive
      · apply h.toBound.change hc hsole
        intro i d p hd hopen hn hp hmem
        apply he.mem_files hmem
        intro hu
        exact hspared p hu i d hd hopen hn hp
      · exact (h.toBound.opened hsu hu).opened hut hsole
      · exact h.toBound.stray hstray hsole
    refine ⟨hbound, ?_⟩
    intro i d p hd hopen hn hp hcall
    have hu := he.mem_calls hcall
    exact hspared p hu i d (get_of_unlinks h.toExclusive he hu hd hopen) hopen hn hp
  · cases hs

/-- A destructor that misses its condition unlinks a pathname that is still owned. -/
lemma Quiet.breaks (h : Quiet s) (hg : ¬SparesListener pl s op)
    (hs : SocketOp.answeredStep pl s op = some t) : ¬PathsKept t := by
  unfold SocketOp.answeredStep at hs
  split at hs
  · rename_i ha
    have he := step_effect hs
    cases op with
    | destroy x name =>
      intro hkept
      apply hg
      by_contra hno
      obtain ⟨hw, hno⟩ := not_or.mp hno
      apply hno
      intro v i d p hx hv hdom hl hd hlocal hb y j e he' hopen' hy hp
      have hname : SocketOp.answersName pl s.kernel v.m_sockFD name = true := by
        simpa [SocketOp.answered, hx, hv] using ha
      have hpath := unlinkedPath_of_answers hname hl hd (Bool.eq_false_iff.mpr hw) hdom
      rw [hlocal] at hpath
      obtain ⟨d', hd', hopen, hnum⟩ := Kernel.exists_of_lookup hl
      obtain rfl : d = d' := Option.some.inj (hd.symm.trans hd')
      have hij : j ≠ i := by
        rintro rfl
        rw [hd] at he'
        cases he'
        rw [hb] at hp
        cases hp
      have hyx : y ≠ x := by
        rintro rfl
        rw [owner_iff hx] at hy
        exact hij (h.numbers j i e d he' hd hopen' hopen (hy.2.symm.trans hnum.symm))
      have hc := he.destroyed hx hv
      have hget : t.kernel.descs.get j = some e := by
        rw [hc.descs_eq, Kernel.get_close hl, if_neg hij, he']
      have howner : Owner t.socks y e.number := by
        rw [hc.socks]
        exact owner_erase.mpr ⟨hyx, hy⟩
      apply (hkept y j e p hget hopen' howner hp).2
      rw [hc.calls, hpath]
      exact List.mem_append_left _ List.mem_cons_self
    | _ => exact absurd trivial hg
  · cases hs

end Unlinking

/-- Every pathname is kept while an object owns the descriptor bound to it exactly when no
accepted socket is destroyed before its listener. -/
theorem paths_kept_iff (autoInitialize : Bool) (files : List (List UInt8))
    (ops : List SocketOp) :
    Along (SocketOp.answeredStep pl) PathsKept (World.initial autoInitialize files) ops ↔
      Guarded (SocketOp.answeredStep pl) (SparesListener pl)
        (World.initial autoInitialize files) ops := by
  apply along_iff_guarded (I := Quiet)
  · intro s h
    exact h.pathsKept
  · intro s op t h hg hs
    exact h.step hg hs
  · intro s op t h hg hs
    exact h.breaks hg hs
  · refine ⟨Bound.initial autoInitialize files, ?_⟩
    intro i d p hd
    cases hd

/-- The destructor of an accepted socket removes the pathname of its listener. -/
theorem not_paths_kept : ¬∀ ops : List SocketOp,
    Along (SocketOp.answeredStep linuxHost) PathsKept (World.initial true []) ops := by
  intro h
  let name : SockaddrStorage := ⟨[1, 0, 47, 97] ++ List.replicate 124 0, rfl⟩
  have hlast := (h [.create 1 1 0 (.ok 3), .member 0 (.bind name 5 (.ok ())),
    .member 0 (.listen 255 (.ok ())), .accept 0 (.ok 4), .destroy 1 (.ok (name, 5))]).last rfl
  obtain ⟨hfile, -⟩ := hlast 0 0
    { number := 3, localPath := some [47, 97], boundPath := some [47, 97] }
    [47, 97] rfl rfl ⟨_, rfl, rfl, rfl⟩ rfl
  cases hfile

end SockLib
