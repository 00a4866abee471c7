import SockLib.Proofs.Identity
import SockLib.Proofs.Ownership

/-!
# Decoding a part of a C structure

`address(st, len)` is told how many bytes of the structure are there. The decoders of the IP
classes read their fields whatever the length, and the family is read in any case. The decoder
of unix addresses computes the length of the path from `len`.
-/

namespace SockLib

variable (pl : Platform)

/-! ### What the decoders read -/

/-- As far as its decoder reads, at least. -/
def Family.need : Family → Nat
  | .unix => 2
  | .IPv4 => 8
  | .IPv6 => 28

/-- The object that `address(st, len)` makes. -/
def decode (st : SockaddrStorage) (len : Nat) : Option (Except Exn AddressObject) :=
  match pl.familyOf (ssFamily pl st) with
  | some f => AddressObject.ofStorage pl f st len
  | none => some (.error (sysErr pl EFAULT))

section Reads

variable {pl} {st st' : SockaddrStorage} {len : Nat}

lemma ofSockaddrIn_congr {m m' : SockaddrIn} (hport : m.slice 2 2 = m'.slice 2 2)
    (haddr : m.slice 4 4 = m'.slice 4 4) :
    IPv4Address.ofSockaddrIn pl m = IPv4Address.ofSockaddrIn pl m' := by
  have harray : m.array 4 4 (by decide) = m'.array 4 4 (by decide) := Subtype.ext haddr
  rw [IPv4Address.ofSockaddrIn, IPv4Address.ofSockaddrIn, harray, hport]

lemma ofSockaddrIn6_congr {m m' : SockaddrIn6} (hport : m.slice 2 2 = m'.slice 2 2)
    (hflow : m.slice 4 4 = m'.slice 4 4) (haddr : m.slice 8 16 = m'.slice 8 16)
    (hscope : m.slice 24 4 = m'.slice 24 4) :
    IPv6Address.ofSockaddrIn6 pl m = IPv6Address.ofSockaddrIn6 pl m' := by
  have harray : m.array 8 16 (by decide) = m'.array 8 16 (by decide) := Subtype.ext haddr
  rw [IPv6Address.ofSockaddrIn6, IPv6Address.ofSockaddrIn6, harray, hport, hflow, hscope]

/-- The decoder of unix addresses in one formula. -/
lemma ofSockaddrUn_eq {n : Nat} (m : Memory n) (hlen : len ≤ n) :
    UnixAddress.ofSockaddrUn m len = some ⟨if len ≤ 2 then []
      else if 3 < len ∧ m.slice 2 1 ≠ [0] then m.slice 2 (len - 3) else m.slice 2 (len - 2)⟩ := by
  by_cases h2 : len ≤ 2
  · rw [ofSockaddrUn_unnamed h2, if_pos h2]
  · rw [if_neg h2]
    by_cases hpath : 3 < len ∧ m.slice 2 1 ≠ [0]
    · rw [ofSockaddrUn_pathname hpath.1 hpath.2 (by omega), if_pos hpath]
    · have hfirst : 3 < len → m.slice 2 1 = [0] := by
        intro h3
        by_contra hne
        exact hpath ⟨h3, hne⟩
      rw [ofSockaddrUn_abstract (by omega) hfirst hlen, if_neg hpath]

/-- It reads nothing behind the length it is told. -/
lemma ofSockaddrUn_congr {n : Nat} {m m' : Memory n} (hlen : len ≤ n)
    (h : m.slice 0 len = m'.slice 0 len) :
    UnixAddress.ofSockaddrUn m len = UnixAddress.ofSockaddrUn m' len := by
  rw [ofSockaddrUn_eq m hlen, ofSockaddrUn_eq m' hlen]
  by_cases h2 : len ≤ 2
  · rw [if_pos h2, if_pos h2]
  · rw [Memory.slice_eq_of_agree h (show 2 + 1 ≤ len by omega),
      Memory.slice_eq_of_agree h (show 2 + (len - 2) ≤ len by omega),
      Memory.slice_eq_of_agree h (show 2 + (len - 3) ≤ len by omega)]

/-- A decoder that has what it needs depends only on the bytes it is given. -/
theorem ofStorage_congr {f : Family} (hlen : len ≤ 128) (h : st.slice 0 len = st'.slice 0 len)
    (hneed : f.need ≤ len) :
    AddressObject.ofStorage pl f st len = AddressObject.ofStorage pl f st' len := by
  cases f with
  | unix => rw [AddressObject.ofStorage, AddressObject.ofStorage, ofSockaddrUn_congr hlen h]
  | IPv4 =>
    have hpart : ∀ off l, off + l ≤ 8 →
        (st.array 0 16 (by decide)).slice off l = (st'.array 0 16 (by decide)).slice off l := by
      intro off l hl
      rw [Memory.slice_array _ _ (by omega), Memory.slice_array _ _ (by omega)]
      have hneed' : 8 ≤ len := hneed
      exact Memory.slice_eq_of_agree h (by omega)
    rw [AddressObject.ofStorage, AddressObject.ofStorage,
      ofSockaddrIn_congr (hpart 2 2 (by decide)) (hpart 4 4 (by decide))]
  | IPv6 =>
    have hpart : ∀ off l, off + l ≤ 28 →
        (st.array 0 28 (by decide)).slice off l = (st'.array 0 28 (by decide)).slice off l := by
      intro off l hl
      rw [Memory.slice_array _ _ (by omega), Memory.slice_array _ _ (by omega)]
      have hneed' : 28 ≤ len := hneed
      exact Memory.slice_eq_of_agree h (by omega)
    rw [AddressObject.ofStorage, AddressObject.ofStorage,
      ofSockaddrIn6_congr (hpart 2 2 (by decide)) (hpart 4 4 (by decide)) (hpart 8 16 (by decide))
        (hpart 24 4 (by decide))]

/-- Within the storage no decoder reads outside. -/
lemma ofStorage_ne_none (f : Family) (hlen : len ≤ 128) :
    AddressObject.ofStorage pl f st len ≠ none := by
  cases f with
  | IPv4 => exact Option.some_ne_none _
  | IPv6 => exact Option.some_ne_none _
  | unix =>
    rw [AddressObject.ofStorage, ofSockaddrUn_eq st hlen]
    exact Option.some_ne_none _

variable (pl) in
lemma decode_cases (st : SockaddrStorage) (hlen : len ≤ 128) :
    (∃ e, decode pl st len = some (.error e)) ∨ ∃ o, decode pl st len = some (.ok o) := by
  have hne : decode pl st len ≠ none := by
    unfold decode
    split
    · exact ofStorage_ne_none _ hlen
    · exact Option.some_ne_none _
  obtain ⟨r, hr⟩ := Option.ne_none_iff_exists'.mp hne
  cases r with
  | error e => exact Or.inl ⟨e, hr⟩
  | ok o => exact Or.inr ⟨o, hr⟩

end Reads

/-! ### What is accepted -/

/-- `inet_ntop` prints the IP address in a C structure. There is none in that of a unix address. -/
def Printable (st : SockaddrStorage) : Family → Prop
  | .unix => True
  | .IPv4 => ∃ r, pl.inet_ntop (pl.domainOf .IPv4) (st.slice 4 4) = .ok r
  | .IPv6 => ∃ r, pl.inet_ntop (pl.domainOf .IPv6) (st.slice 8 16) = .ok r

/-- The name of a unix address lies inside the storage. The terminator of a pathname is not read. -/
def InStorage (st : SockaddrStorage) (len : Nat) (f : Family) : Prop :=
  f = .unix → len ≤ 128 ∨ len = 129 ∧ st.slice 2 1 ≠ [0]

section Accepted

variable {pl} {st : SockaddrStorage} {len : Nat} {f : Family}

lemma inStorage_of_ne (hf : f ≠ .unix) : InStorage st len f := fun h => absurd h hf

lemma exists_ofSockaddrUn_iff {n : Nat} {m : Memory n} (hn : 3 ≤ n) :
    (∃ a, UnixAddress.ofSockaddrUn m len = some a) ↔
      len ≤ n ∨ len = n + 1 ∧ m.slice 2 1 ≠ [0] := by
  by_cases hlen : len ≤ n
  · exact iff_of_true ⟨_, ofSockaddrUn_eq m hlen⟩ (Or.inl hlen)
  by_cases hpath : len = n + 1 ∧ m.slice 2 1 ≠ [0]
  · exact iff_of_true ⟨_, ofSockaddrUn_pathname (by omega) hpath.2 (by omega)⟩ (Or.inr hpath)
  · refine iff_of_false ?_ (not_or.mpr ⟨hlen, hpath⟩)
    rintro ⟨a, ha⟩
    have hlong : 3 < len := by omega
    by_cases hfirst : m.slice 2 1 = [0]
    · have hout : ¬2 + (len - 2) ≤ n := by omega
      simp [UnixAddress.ofSockaddrUn, Memory.load, hfirst, hlong, hn, hout] at ha
      omega
    · have hne : len ≠ n + 1 := fun h => hpath ⟨h, hfirst⟩
      have hout : ¬2 + (len - 2 - 1) ≤ n := by omega
      simp [UnixAddress.ofSockaddrUn, Memory.load, hfirst, hlong, hn, hout] at ha

lemma ofSockaddrIn_error {m : SockaddrIn} {errno : Int}
    (hr : pl.inet_ntop (pl.domainOf .IPv4) (m.slice 4 4) = .error errno) :
    IPv4Address.ofSockaddrIn pl m = .error (sysErr pl errno) := by
  rw [IPv4Address.ofSockaddrIn, Memory.toList_array, hr]

lemma ofSockaddrIn6_error {m : SockaddrIn6} {errno : Int}
    (hr : pl.inet_ntop (pl.domainOf .IPv6) (m.slice 8 16) = .error errno) :
    IPv6Address.ofSockaddrIn6 pl m = .error (sysErr pl errno) := by
  rw [IPv6Address.ofSockaddrIn6, Memory.toList_array, hr]

variable (pl) in
/-- The constructor of a class throws where `inet_ntop` fails, and reads outside of the storage
where a unix name does not lie in it. -/
lemma ofStorage_cases (f : Family) (st : SockaddrStorage) (len : Nat) :
    (Printable pl st f ∧ InStorage st len f ∧
        ∃ o, AddressObject.ofStorage pl f st len = some (.ok o)) ∨
      (Printable pl st f ∧ ¬InStorage st len f ∧ AddressObject.ofStorage pl f st len = none) ∨
      (¬Printable pl st f ∧ ∃ e, AddressObject.ofStorage pl f st len = some (.error e)) := by
  cases f with
  | unix =>
    have hiff : (∃ a, UnixAddress.ofSockaddrUn st len = some a) ↔
        len ≤ 128 ∨ len = 129 ∧ st.slice 2 1 ≠ [0] := exists_ofSockaddrUn_iff (by decide)
    rw [AddressObject.ofStorage]
    cases hun : UnixAddress.ofSockaddrUn st len with
    | some a => exact Or.inl ⟨trivial, fun _ => hiff.mp ⟨a, hun⟩, _, rfl⟩
    | none =>
      refine Or.inr (Or.inl ⟨trivial, fun hin => ?_, rfl⟩)
      obtain ⟨a, ha⟩ := hiff.mpr (hin rfl)
      rw [hun] at ha
      cases ha
  | IPv4 =>
    have hslice : (st.array 0 16 (by decide)).slice 4 4 = st.slice 4 4 :=
      st.slice_array (by decide) (by decide)
    rw [AddressObject.ofStorage]
    cases hr : pl.inet_ntop (pl.domainOf .IPv4) (st.slice 4 4) with
    | ok r =>
      obtain ⟨b, hb, -⟩ := ofSockaddrIn_ok (hslice.symm ▸ hr)
      rw [hb]
      exact Or.inl ⟨⟨r, hr⟩, inStorage_of_ne (by decide), _, rfl⟩
    | error errno =>
      rw [ofSockaddrIn_error (hslice.symm ▸ hr)]
      refine Or.inr (Or.inr ⟨?_, _, rfl⟩)
      rintro ⟨r, hr'⟩
      rw [hr] at hr'
      cases hr'
  | IPv6 =>
    have hslice : (st.array 0 28 (by decide)).slice 8 16 = st.slice 8 16 :=
      st.slice_array (by decide) (by decide)
    rw [AddressObject.ofStorage]
    cases hr : pl.inet_ntop (pl.domainOf .IPv6) (st.slice 8 16) with
    | ok r =>
      obtain ⟨b, hb, -⟩ := ofSockaddrIn6_ok (hslice.symm ▸ hr)
      rw [hb]
      exact Or.inl ⟨⟨r, hr⟩, inStorage_of_ne (by decide), _, rfl⟩
    | error errno =>
      rw [ofSockaddrIn6_error (hslice.symm ▸ hr)]
      refine Or.inr (Or.inr ⟨?_, _, rfl⟩)
      rintro ⟨r, hr'⟩
      rw [hr] at hr'
      cases hr'

lemma exists_ofStorage_ok_iff : (∃ o, AddressObject.ofStorage pl f st len = some (.ok o)) ↔
    Printable pl st f ∧ InStorage st len f := by
  rcases ofStorage_cases pl f st len with ⟨hp, hin, hok⟩ | ⟨hp, hin, hnone⟩ | ⟨hp, e, he⟩
  · exact iff_of_true hok ⟨hp, hin⟩
  · exact iff_of_false (by simp [hnone]) fun h => hin h.2
  · exact iff_of_false (by simp [he]) fun h => hp h.1

lemma exists_ofStorage_error_iff :
    (∃ e, AddressObject.ofStorage pl f st len = some (.error e)) ↔ ¬Printable pl st f := by
  rcases ofStorage_cases pl f st len with ⟨hp, -, o, ho⟩ | ⟨hp, -, hnone⟩ | ⟨hp, he⟩
  · exact iff_of_false (by simp [ho]) (not_not_intro hp)
  · exact iff_of_false (by simp [hnone]) (not_not_intro hp)
  · exact iff_of_true he hp

end Accepted

/-! ### Two runs -/

/-- Flow information and scope, where the class has them. -/
def AddressObject.scoping : AddressObject → Option (UInt32 × UInt32)
  | .ipv6 a => some (a.flowInfo, a.scopeId)
  | _ => none

/-- Decoding two structures throws for both, or yields addresses that cannot be told apart. -/
def DecodesAlike (s : Addresses) (st st' : SockaddrStorage) (len : Nat) : Prop :=
  ((∃ e t, Addresses.ofStorage pl st len s = .throw e t) ∧
    ∃ e t, Addresses.ofStorage pl st' len s = .throw e t) ∨
  ∃ x y t u o o', Addresses.ofStorage pl st len s = .ok x t ∧
    Addresses.ofStorage pl st' len t = .ok y u ∧ u.Holds pl x o ∧ u.Holds pl y o' ∧
    o.family = o'.family ∧ Addresses.equals pl x y u = .ok true u ∧ o.name = o'.name ∧
    o.scoping = o'.scoping

/-- The condition: the bytes that are given are all that is read by the decoder of every
family whose number begins with them. -/
def Determined (st : SockaddrStorage) (len : Nat) : Prop :=
  ∀ f : Family, (st.slice 0 2).take len = (intBytes pl.bigEndian 2 (pl.domainOf f)).take len →
    f.need ≤ len

section TwoRuns

variable {pl} {s : Addresses} {st st' : SockaddrStorage} {len : Nat} {o o' : AddressObject}

lemma ofStorage_of_decode_ok (hs : pl.LibraryWorks) (h : decode pl st len = some (.ok o)) :
    ssFamily pl st = pl.domainOf o.family ∧
      Addresses.ofStorage pl st len s = .ok s.vars.next
        { lib := s.lib.enter, heap := s.heap.push o,
          vars := s.vars.push ⟨ssFamily pl st, some s.heap.next⟩ } := by
  unfold decode at h
  cases hf : pl.familyOf (ssFamily pl st) with
  | none =>
    rw [hf] at h
    cases h
  | some f =>
    rw [hf] at h
    constructor
    · rw [ofStorage_family h, pl.domainOf_of_familyOf hf]
    · apply Prog.eq_ok_of_wp
      rw [Addresses.wp_ofStorage hs hf h]
      exact ⟨rfl, rfl⟩

lemma ofStorage_of_decode_error (hs : pl.LibraryWorks) (hlen : len ≤ 128) {e : Exn}
    (h : decode pl st len = some (.error e)) :
    ∃ e t, Addresses.ofStorage pl st len s = .throw e t := by
  have hwp : Prog.wp (Addresses.ofStorage pl st len) (fun _ _ => False) (fun _ _ => True)
      (fun _ => False) s := by
    rw [Addresses.ofStorage, Addresses.wp_construct]
    apply Addresses.assign_spec pl (s.vars.get_push_self _)
    · intro p hp
      cases hp
    · intro f o hf ho _
      unfold decode at h
      rw [hf] at h
      change AddressObject.ofStorage pl f st len = some (.error e) at h
      rw [ho] at h
      cases h
    · intro _ _ _ _
      trivial
    · intro l hl
      exact hs.not_cleanupFails l hl
    · intro f hf
      exact ofStorage_ne_none f hlen hf
  obtain ⟨e, t, ht, -⟩ := Prog.exists_throw_of_wp hwp
  exact ⟨e, t, ht⟩

lemma AddressObject.SameValue.refl (o : AddressObject) : o.SameValue o := by
  cases o with
  | ipv4 a => exact ⟨rfl, rfl⟩
  | ipv6 a => exact ⟨rfl, rfl, rfl, rfl⟩
  | unix a => exact rfl

lemma AddressObject.eq_of_sameValue (h : o.SameValue o') (hname : o.name = o'.name) : o = o' := by
  cases o with
  | ipv4 a =>
    cases o' with
    | ipv4 b =>
      cases a
      cases b
      obtain ⟨rfl, rfl⟩ := h
      obtain rfl := hname
      rfl
    | ipv6 b => exact h.elim
    | unix b => exact h.elim
  | ipv6 a =>
    cases o' with
    | ipv4 b => exact h.elim
    | ipv6 b =>
      cases a
      cases b
      obtain ⟨rfl, rfl, rfl, rfl⟩ := h
      obtain rfl := hname
      rfl
    | unix b => exact h.elim
  | unix a =>
    cases o' with
    | ipv4 b => exact h.elim
    | ipv6 b => exact h.elim
    | unix b =>
      cases a
      cases b
      obtain rfl := h
      rfl

lemma AddressObject.DifferInScope.scoping_ne (h : o.DifferInScope o') : o.scoping ≠ o'.scoping := by
  intro hscoping
  cases o with
  | ipv4 a => exact h
  | ipv6 a =>
    cases o' with
    | ipv4 b => exact h
    | ipv6 b =>
      obtain ⟨hflow, hscope⟩ := Prod.mk.inj (Option.some.inj hscoping)
      exact h.2.2 ⟨hflow, hscope⟩
    | unix b => exact h
  | unix a => exact h

lemma Addresses.Holds.unique {x : Nat} (h : s.Holds pl x o) (h' : s.Holds pl x o') : o = o' := by
  obtain ⟨a, p, hx, -, hp, ho⟩ := h
  obtain ⟨b, q, hx', -, hq, ho'⟩ := h'
  obtain rfl := Option.some.inj (hx.symm.trans hx')
  obtain rfl := Option.some.inj (hp.symm.trans hq)
  exact Option.some.inj (ho.symm.trans ho')

/-- One structure after the other is decoded. -/
lemma exists_decoded (hs : pl.LibraryWorks) (h : decode pl st len = some (.ok o))
    (h' : decode pl st' len = some (.ok o')) :
    ∃ x y t u, Addresses.ofStorage pl st len s = .ok x t ∧
      Addresses.ofStorage pl st' len t = .ok y u ∧ u.Holds pl x o ∧ u.Holds pl y o' := by
  obtain ⟨hd, hx⟩ := ofStorage_of_decode_ok (s := s) hs h
  obtain ⟨hd', hy⟩ := ofStorage_of_decode_ok hs h'
  refine ⟨_, _, _, _, hx, hy, ?_, ?_⟩
  · exact ⟨_, _, Store.get_push_of_some (Store.get_push_self _ _) _, hd, rfl,
      Store.get_push_of_some (Store.get_push_self _ _) _⟩
  · exact ⟨_, _, Store.get_push_self _ _, hd', rfl, Store.get_push_self _ _⟩

/-- Nothing but the objects that are made decides whether two structures decode alike. -/
theorem decodesAlike_iff (hs : pl.LibraryWorks) (hlen : len ≤ 128) :
    DecodesAlike pl s st st' len ↔
      ((∃ e, decode pl st len = some (.error e)) ∧ ∃ e, decode pl st' len = some (.error e)) ∨
      ∃ o, decode pl st len = some (.ok o) ∧ decode pl st' len = some (.ok o) := by
  constructor
  · rintro (⟨⟨e, t, ht⟩, e', t', ht'⟩ | ⟨x, y, t, u, o, o', hx, hy, ho, ho', -, heq, hname, hscope⟩)
    · rcases decode_cases pl st hlen with herr | ⟨o, ho⟩
      · rcases decode_cases pl st' hlen with herr' | ⟨o', ho'⟩
        · exact Or.inl ⟨herr, herr'⟩
        · rw [(ofStorage_of_decode_ok hs ho').2] at ht'
          cases ht'
      · rw [(ofStorage_of_decode_ok hs ho).2] at ht
        cases ht
    · rcases decode_cases pl st hlen with ⟨e, herr⟩ | ⟨o₁, h₁⟩
      · obtain ⟨e', t', ht'⟩ := ofStorage_of_decode_error (s := s) hs hlen herr
        rw [ht'] at hx
        cases hx
      · rcases decode_cases pl st' hlen with ⟨e, herr⟩ | ⟨o₂, h₂⟩
        · obtain ⟨e', t', ht'⟩ := ofStorage_of_decode_error (s := t) hs hlen herr
          rw [ht'] at hy
          cases hy
        · obtain ⟨x', y', t', u', hx', hy', hu, hu'⟩ := exists_decoded (s := s) hs h₁ h₂
          rw [hx] at hx'
          cases hx'
          rw [hy] at hy'
          cases hy'
          obtain rfl := ho.unique hu
          obtain rfl := ho'.unique hu'
          obtain ⟨v, hv, hiff⟩ := ho.exists_equals ho'
          rw [heq] at hv
          cases hv
          rcases hiff.mp rfl with hsame | hdiffer
          · obtain rfl := AddressObject.eq_of_sameValue hsame hname
            exact Or.inr ⟨o, h₁, h₂⟩
          · exact absurd hscope hdiffer.scoping_ne
  · rintro (⟨⟨e, he⟩, e', he'⟩ | ⟨o, ho, ho'⟩)
    · exact Or.inl ⟨ofStorage_of_decode_error hs hlen he, ofStorage_of_decode_error hs hlen he'⟩
    · obtain ⟨x, y, t, u, hx, hy, hu, hu'⟩ := exists_decoded (s := s) hs ho ho'
      obtain ⟨v, hv, hiff⟩ := hu.exists_equals hu'
      obtain rfl := hiff.mpr (Or.inl (AddressObject.SameValue.refl o))
      exact Or.inr ⟨x, y, t, u, o, o, hx, hy, hu, hu', rfl, hv, rfl, rfl⟩

/-! ### What is determined -/

/-- What is decoded depends only on the bytes that are given. -/
theorem decode_congr (hlen : len ≤ 128) (hdet : Determined pl st len)
    (h : st.slice 0 len = st'.slice 0 len) : decode pl st len = decode pl st' len := by
  by_cases h2 : 2 ≤ len
  · have hfam : ssFamily pl st = ssFamily pl st' := by
      rw [ssFamily, ssFamily, Memory.slice_eq_of_agree h (show 0 + 2 ≤ len by omega)]
    rw [decode, decode, ← hfam]
    cases hf : pl.familyOf (ssFamily pl st) with
    | none => rfl
    | some f =>
      apply ofStorage_congr hlen h
      apply hdet
      rw [← intBytes_ssFamily pl st, pl.domainOf_of_familyOf hf]
  · -- no family begins with the byte that may be there
    have hnone : ∀ m : SockaddrStorage, st.slice 0 len = m.slice 0 len →
        decode pl m len = some (.error (sysErr pl EFAULT)) := by
      intro m hm
      rw [decode]
      cases hf : pl.familyOf (ssFamily pl m) with
      | none => rfl
      | some f =>
        have hneed : f.need ≤ len := by
          apply hdet
          rw [Memory.take_slice _ _ (by omega), hm, ← Memory.take_slice m 0 (show len ≤ 2 by omega),
            ← intBytes_ssFamily pl m, pl.domainOf_of_familyOf hf]
        have h2' : 2 ≤ f.need := by
          cases f <;> decide
        omega
    rw [hnone st rfl, hnone st' h]

lemma exists_decode (hn : pl.NtopTotal) (hlen : len ≤ 128) {f : Family}
    (hf : ssFamily pl st = pl.domainOf f) : ∃ o, decode pl st len = some (.ok o) := by
  rw [decode, hf, Platform.familyOf_domainOf]
  cases f with
  | unix =>
    obtain ⟨a, ha⟩ : ∃ a, UnixAddress.ofSockaddrUn st len = some a := ⟨_, ofSockaddrUn_eq st hlen⟩
    refine ⟨.unix a, ?_⟩
    change (UnixAddress.ofSockaddrUn st len).map _ = _
    rw [ha]
    rfl
  | IPv4 =>
    obtain ⟨r, hr⟩ := hn.v4 ((st.array 0 16 (by decide)).array 4 4 (by decide))
    obtain ⟨b, hb, -⟩ := ofSockaddrIn_ok hr
    refine ⟨.ipv4 b, ?_⟩
    change some ((IPv4Address.ofSockaddrIn pl _).map _) = _
    rw [hb]
    rfl
  | IPv6 =>
    obtain ⟨r, hr⟩ := hn.v6 ((st.array 0 28 (by decide)).array 8 16 (by decide))
    obtain ⟨b, hb, -⟩ := ofSockaddrIn6_ok hr
    refine ⟨.ipv6 b, ?_⟩
    change some ((IPv6Address.ofSockaddrIn6 pl _).map _) = _
    rw [hb]
    rfl

/-- The last byte that an IP decoder needs can be told from the object. -/
lemma last_needed {f : Family} (hf : f ≠ .unix) (hst : ssFamily pl st = pl.domainOf f)
    (hst' : ssFamily pl st' = pl.domainOf f) (h : decode pl st len = some (.ok o))
    (h' : decode pl st' len = some (.ok o)) :
    st.slice (f.need - 1) 1 = st'.slice (f.need - 1) 1 := by
  rw [decode, hst, Platform.familyOf_domainOf] at h
  rw [decode, hst', Platform.familyOf_domainOf] at h'
  cases f with
  | unix => exact absurd rfl hf
  | IPv4 =>
    have hread : ∀ m : SockaddrStorage,
        AddressObject.ofStorage pl .IPv4 m len = some (.ok o) →
        ∃ a, o = .ipv4 a ∧ a.m_addr.toList = m.slice 4 4 := by
      intro m hm
      obtain ⟨a, ha, rfl⟩ := exists_of_map_eq_ok (Option.some.inj hm)
      rw [IPv4Address.ofSockaddrIn] at ha
      split at ha
      · cases ha
      · cases ha
        exact ⟨_, rfl, Memory.slice_array m _ (by decide)⟩
    obtain ⟨a, rfl, ha⟩ := hread st h
    obtain ⟨b, hab, hb⟩ := hread st' h'
    cases hab
    exact Memory.slice_eq_of_slice_eq (ha.symm.trans hb) (by decide) (by decide)
  | IPv6 =>
    have hread : ∀ m : SockaddrStorage,
        AddressObject.ofStorage pl .IPv6 m len = some (.ok o) →
        ∃ a, o = .ipv6 a ∧ intBytes pl.bigEndian 4 a.m_scopeId.toNat = m.slice 24 4 := by
      intro m hm
      obtain ⟨a, ha, rfl⟩ := exists_of_map_eq_ok (Option.some.inj hm)
      rw [IPv6Address.ofSockaddrIn6] at ha
      split at ha
      · cases ha
      · cases ha
        refine ⟨_, rfl, ?_⟩
        rw [u32Bytes_slice _ (by decide), Memory.slice_array m _ (by decide)]
    obtain ⟨a, rfl, ha⟩ := hread st h
    obtain ⟨b, hab, hb⟩ := hread st' h'
    cases hab
    exact Memory.slice_eq_of_slice_eq (ha.symm.trans hb) (by decide) (by decide)

/-- A byte can be changed without touching those before it. -/
lemma exists_changed (st : SockaddrStorage) {k : Nat} (hk : k < 128) :
    ∃ st' : SockaddrStorage, st.slice k 1 ≠ st'.slice k 1 ∧
      ∀ off l, off + l ≤ k → st'.slice off l = st.slice off l := by
  obtain ⟨d, hd⟩ := List.length_eq_one_iff.mp (st.length_slice (show k + 1 ≤ 128 by omega))
  obtain ⟨c, hc⟩ : ∃ c : UInt8, c ≠ d := by
    by_cases h0 : d = 0
    · exact ⟨1, by rw [h0]; decide⟩
    · exact ⟨0, Ne.symm h0⟩
  obtain ⟨st', hst'⟩ := st.exists_store (show k + [c].length ≤ 128 from hk)
  have hnew : st'.slice k 1 = [c] := Memory.slice_store_self hst' rfl
  refine ⟨st', ?_, ?_⟩
  · rw [hnew, hd]
    intro h
    exact hc (List.cons.inj h).1.symm
  · intro off l hl
    exact Memory.slice_store_before hst' hl

/-- A structure with this family, and one of no family, that begin with the same byte. -/
lemma exists_family_and_none (f : Family) (hlen : len < 2)
    (hf : (st.slice 0 2).take len = (intBytes pl.bigEndian 2 (pl.domainOf f)).take len) :
    ∃ st₁ st₂ : SockaddrStorage, st.slice 0 len = st₁.slice 0 len ∧
      st.slice 0 len = st₂.slice 0 len ∧ ssFamily pl st₁ = pl.domainOf f ∧
      pl.familyOf (ssFamily pl st₂) = none := by
  have hfit : 0 + (intBytes pl.bigEndian 2 (pl.domainOf f)).length ≤ 128 := by simp
  obtain ⟨st₁, h₁⟩ := st.exists_store hfit
  obtain ⟨st₂, h₂⟩ := st₁.exists_store (show 1 + [(255 : UInt8)].length ≤ 128 by decide)
  have hfam : st₁.slice 0 2 = intBytes pl.bigEndian 2 (pl.domainOf f) :=
    Memory.slice_store_self h₁ (by simp)
  have hagree : st.slice 0 len = st₁.slice 0 len := by
    rw [← Memory.take_slice st 0 (show len ≤ 2 by omega), hf, ← hfam,
      Memory.take_slice _ _ (by omega)]
  refine ⟨st₁, st₂, hagree, ?_, ssFamily_of_slice hfam, ?_⟩
  · rw [hagree]
    exact (Memory.slice_store_before h₂ (by omega)).symm
  · obtain ⟨d, hd⟩ := List.length_eq_one_iff.mp (st₂.length_slice (show 0 + 1 ≤ 128 by decide))
    have hnew : st₂.slice (0 + 1) 1 = [255] := Memory.slice_store_self h₂ rfl
    have hbytes : st₂.slice 0 2 = [d, 255] := by
      rw [st₂.slice_add 0 1 1, hd, hnew]
      rfl
    have hd' := d.toNat_lt
    have h6 := pl.AF_INET6_cases
    rw [ssFamily, hbytes]
    unfold Platform.familyOf intOfBytes
    cases pl.bigEndian
    · have hv : spelled [d, 255] = d.toNat + 256 * 255 := rfl
      simp only [Bool.false_eq_true, if_false, hv]
      rw [if_neg (by omega), if_neg (by omega), if_neg (by omega)]
    · have hv : spelled [255, d] = 255 + 256 * d.toNat := by simp [spelled]
      simp only [if_true, List.reverse_cons, List.reverse_nil, List.nil_append, List.cons_append,
        hv]
      rw [if_neg (by omega), if_neg (by omega), if_neg (by omega)]

lemma decode_of_alike (hs : pl.LibraryWorks) (hlen : len ≤ 128)
    (h : DecodesAlike pl s st st' len) :
    decode pl st len = some (.ok o) ↔ decode pl st' len = some (.ok o) := by
  rcases (decodesAlike_iff hs hlen).mp h with ⟨⟨e, he⟩, e', he'⟩ | ⟨o', ho, ho'⟩
  · rw [he, he']
    simp
  · rw [ho, ho']

variable (pl) in
/-- Decoding depends only on the bytes it is given exactly when these are all that is read. -/
theorem decoding_determined_iff (hn : pl.NtopTotal) (hs : pl.LibraryWorks) (s : Addresses)
    (st : SockaddrStorage) (len : Nat) (hlen : len ≤ 128) :
    (∀ st', st.slice 0 len = st'.slice 0 len → DecodesAlike pl s st st' len) ↔
      Determined pl st len := by
  constructor
  · intro h f hf
    by_contra hneed
    by_cases h2 : len < 2
    · obtain ⟨st₁, st₂, h₁, h₂, hfam, hnone⟩ := exists_family_and_none f h2 hf
      obtain ⟨o, ho⟩ := exists_decode hn hlen hfam
      have hst := (decode_of_alike hs hlen (h st₁ h₁)).mpr ho
      have hst₂ := (decode_of_alike hs hlen (h st₂ h₂)).mp hst
      rw [decode, hnone] at hst₂
      cases hst₂
    · have hlast : 2 ≤ f.need - 1 ∧ len ≤ f.need - 1 ∧ f.need - 1 < 128 ∧ f ≠ .unix := by
        cases f <;> simp_all [Family.need] <;> omega
      obtain ⟨hlast2, hlastlen, hlast128, hip⟩ := hlast
      have hfam : ssFamily pl st = pl.domainOf f := by
        apply ssFamily_of_slice
        rwa [List.take_of_length_le (by rw [st.length_slice (by decide)]; omega),
          List.take_of_length_le (by rw [length_intBytes]; omega)] at hf
      obtain ⟨o, ho⟩ := exists_decode hn hlen hfam
      obtain ⟨st', hne, hbefore⟩ := exists_changed st hlast128
      have hfam' : ssFamily pl st' = pl.domainOf f := by
        rw [← hfam, ssFamily, ssFamily, hbefore 0 2 hlast2]
      have ho' := (decode_of_alike hs hlen (h st' (hbefore 0 len (by omega)).symm)).mp ho
      exact hne (last_needed hip hfam hfam' ho ho')
  · intro hdet st' h
    rw [decodesAlike_iff hs hlen, ← decode_congr hlen hdet h]
    rcases decode_cases pl st hlen with ⟨e, he⟩ | ⟨o, ho⟩
    · exact Or.inl ⟨⟨e, he⟩, e, he⟩
    · exact Or.inr ⟨o, ho, ho⟩

/-- The pathname `/a` with its terminator, and other bytes behind them than in `pathStorage`. -/
def pathStart : SockaddrStorage := Memory.uninit 128 fun i =>
  if i = 0 then 1 else if i = 2 then 47 else if i = 3 then 97 else if i < 5 then 0 else 7

set_option maxRecDepth 2000 in
/-- All that is read of the pathname `/a` has been written. -/
theorem decoding_determined_iff_linux :
    DecodesAlike linuxHost Addresses.initial pathStorage pathStart 5 := by
  have hdet : Determined linuxHost pathStorage 5 := by
    intro f hf
    cases f with
    | unix => decide
    | IPv4 => exact absurd hf (by decide)
    | IPv6 => exact absurd hf (by decide)
  exact (decoding_determined_iff linuxHost (ntopTotal_numericHost false false true)
    (libraryWorks_numericHost false false true) Addresses.initial pathStorage 5 (by decide)).mpr
    hdet pathStart rfl

set_option maxRecDepth 2000 in
/-- Without any bytes, what was on the stack decides. -/
theorem decoding_not_determined : ¬∀ (s : Addresses) (st st' : SockaddrStorage) (len : Nat),
    len ≤ 128 → st.slice 0 len = st'.slice 0 len → DecodesAlike linuxHost s st st' len := by
  intro h
  rcases h Addresses.initial (Memory.uninit 128 fun _ => 0) pathStorage 0 (by decide) rfl with
    ⟨-, e, t, ht⟩ | ⟨x, y, t, u, o, o', hx, -⟩
  · cases ht
  · cases hx

end TwoRuns

/-! ### Pathnames and their lengths -/

/-- The address decoded is the one made from the pathname, and has its name. -/
def DecodesTo (m : Memory pl.sockaddrUnSize) (len : Nat) (path : List UInt8) : Prop :=
  ∃ a b, UnixAddress.ofSockaddrUn m len = some a ∧ UnixAddress.ofString pl path = .ok b ∧
    a.equals b = true ∧ a.name = path

section Pathnames

variable {pl} {len : Nat}

lemma decodesTo_iff {m : Memory pl.sockaddrUnSize} {path : List UInt8} {a : UnixAddress}
    (hmin : 1 ≤ path.length) (hmax : path.length ≤ 107) (hnul : (0 : UInt8) ∉ path)
    (ha : UnixAddress.ofSockaddrUn m len = some a) : DecodesTo pl m len path ↔ a.m_addr = path := by
  have hsun := sunPathSize_ge pl
  have hok : UnixAddress.ofString pl path = .ok ⟨path⟩ := by
    rw [UnixAddress.ofString, if_neg (by omega)]
  constructor
  · rintro ⟨a', b, ha', hb, heq, -⟩
    rw [ha] at ha'
    rw [hok] at hb
    cases ha'
    cases hb
    simpa [UnixAddress.equals] using heq
  · intro haddr
    refine ⟨a, ⟨path⟩, ha, hok, by simp [UnixAddress.equals, haddr], ?_⟩
    have hnamed : a.named = true := by
      obtain ⟨c, cs, hcs⟩ := List.exists_cons_of_length_pos hmin
      have hc : c ≠ 0 := by
        rintro rfl
        exact hnul (hcs ▸ List.mem_cons_self)
      simp [UnixAddress.named, haddr, hcs, hc]
    rw [UnixAddress.name, if_pos hnamed, haddr]

variable (pl) in
/-- A pathname is recovered when its terminator is counted, or when it is a single byte. -/
theorem pathname_decodes_iff (m : Memory pl.sockaddrUnSize) (len : Nat) (path : List UInt8)
    (hmin : 1 ≤ path.length) (hmax : path.length ≤ 107) (hnul : (0 : UInt8) ∉ path)
    (hpath : m.slice 2 (path.length + 1) = path ++ [0]) (hlo : 2 + path.length ≤ len)
    (hhi : len ≤ pl.sockaddrUnSize) :
    DecodesTo pl m len path ↔ len = 2 + path.length + 1 ∨ path.length = 1 ∧ len = 3 := by
  have hsize : m.slice 2 path.length = path := by
    rw [← Memory.take_slice m 2 (Nat.le_add_right _ 1), hpath, List.take_left]
  have hfirst : m.slice 2 1 ≠ [0] := by
    intro h0
    rw [← Memory.take_slice m 2 hmin, hsize] at h0
    exact hnul (List.mem_of_mem_take (h0 ▸ List.mem_cons_self))
  rw [decodesTo_iff hmin hmax hnul (ofSockaddrUn_eq m hhi), if_neg (by omega)]
  by_cases h3 : 3 < len
  · rw [if_pos ⟨h3, hfirst⟩]
    constructor
    · intro heq
      have hlen := m.length_slice (show 2 + (len - 3) ≤ pl.sockaddrUnSize by omega)
      have hsame : (m.slice 2 (len - 3)).length = path.length := congrArg List.length heq
      exact Or.inl (by omega)
    · intro hlen
      rw [show len - 3 = path.length by omega, hsize]
  · -- one byte and no terminator is read as a name that is not a pathname
    have hone : path.length = 1 := by omega
    have hlen : len = 3 := by omega
    rw [if_neg (fun h => h3 h.1), show len - 2 = path.length by omega, hsize]
    exact iff_of_true rfl (Or.inr ⟨hone, hlen⟩)

end Pathnames

/-- The structure of the pathname `/ab`. -/
def sockaddrUnAb : Memory linuxHost.sockaddrUnSize := Memory.uninit _ fun i =>
  if i = 0 then 1 else if i = 2 then 47 else if i = 3 then 97 else if i = 4 then 98 else 0

set_option maxRecDepth 2000 in
/-- The terminator is counted. -/
theorem pathname_decodes_iff_linux : DecodesTo linuxHost sockaddrUnAb 6 (bytes "/ab") :=
  (pathname_decodes_iff linuxHost sockaddrUnAb 6 (bytes "/ab") (by decide) (by decide)
    (by decide) (by decide) (by decide) (by decide)).mpr (Or.inl rfl)

set_option maxRecDepth 2000 in
/-- With `SUN_LEN` as the length the last byte is lost. -/
theorem pathname_does_not_decode : ¬∀ (m : Memory linuxHost.sockaddrUnSize) (len : Nat)
    (path : List UInt8), 1 ≤ path.length → path.length ≤ 107 → (0 : UInt8) ∉ path →
    m.slice 2 (path.length + 1) = path ++ [0] → 2 + path.length ≤ len →
    len ≤ linuxHost.sockaddrUnSize → DecodesTo linuxHost m len path := by
  intro h
  obtain ⟨a, b, ha, -, -, hname⟩ := h sockaddrUnAb 5 (bytes "/ab") (by decide) (by decide)
    (by decide) (by decide) (by decide) (by decide)
  obtain rfl := Option.some.inj ha
  exact absurd hname (by decide)

end SockLib
