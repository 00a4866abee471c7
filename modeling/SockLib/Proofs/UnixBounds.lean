import SockLib.Proofs.Names
import SockLib.Proofs.Operands

/-!
# Bounds of unix addresses

The string constructor leaves room for a terminator in `sun_path`. The C structure constructor
does not where the name is abstract and fills `sun_path`, and the cast terminates every name.
On Windows `sun_path` is longer than a `sockaddr_storage`.
-/

namespace SockLib

variable (pl : Platform)

/-! ### Inside `sun_path` -/

/-- The cast to `sockaddr_un` writes inside `sun_path`, and the size counts no more than the
structure. -/
def UnixAddress.StaysInside (a : UnixAddress) : Prop :=
  (∀ junk, (a.toSockaddrUn pl junk).isSome) ∧ a.size ≤ pl.sockaddrUnSize

lemma UnixAddress.staysInside_iff (a : UnixAddress) :
    a.StaysInside pl ↔ a.m_addr.length < pl.sunPathSize := by
  constructor
  · rintro ⟨hcast, -⟩
    exact (toSockaddrUn_isSome pl a fun _ => 0).mp (hcast _)
  · intro hlt
    refine ⟨fun junk => (toSockaddrUn_isSome pl a junk).mpr hlt, ?_⟩
    have hsize := a.size_le
    unfold Platform.sockaddrUnSize
    omega

/-- The cast stays inside `sun_path` after construction from a string, and after construction
from a C structure exactly when the length leaves a byte of it or the first byte is not NUL. -/
theorem unix_cast_inside_iff :
    (∀ addrstr a, UnixAddress.ofString pl addrstr = .ok a → a.StaysInside pl) ∧
    ∀ (n : Nat) (addr : Memory n) (len : Nat) (a : UnixAddress), 2 ≤ len →
      len ≤ pl.sockaddrUnSize → len ≤ n → UnixAddress.ofSockaddrUn addr len = some a →
      (a.StaysInside pl ↔ len < pl.sockaddrUnSize ∨ addr.slice 2 1 ≠ [0]) := by
  constructor
  · intro addrstr a h
    obtain ⟨hlt, rfl⟩ := UnixAddress.ofString_eq_ok.mp h
    exact (UnixAddress.staysInside_iff pl _).mpr hlt
  · intro n addr len a hmin hmax hn h
    have hsize : pl.sockaddrUnSize = 2 + pl.sunPathSize := rfl
    have hsun := sunPathSize_ge pl
    rw [ofSockaddrUn_eq addr hn] at h
    cases h
    rw [UnixAddress.staysInside_iff]
    by_cases h2 : len ≤ 2
    · rw [if_pos h2, List.length_nil]
      omega
    · rw [if_neg h2]
      by_cases hpath : 3 < len ∧ addr.slice 2 1 ≠ [0]
      · rw [if_pos hpath, addr.length_slice (by omega)]
        exact iff_of_true (by omega) (Or.inr hpath.2)
      · rw [if_neg hpath, addr.length_slice (by omega)]
        constructor
        · intro hlt
          exact Or.inl (by omega)
        · rintro (hlt | hfirst)
          · omega
          · by_contra hge
            exact hpath ⟨by omega, hfirst⟩

/-- An abstract name of three bytes, which comes with a length of five. -/
theorem unix_cast_inside_iff_linux :
    (⟨[0, 97, 98]⟩ : UnixAddress).StaysInside linuxHost :=
  ((unix_cast_inside_iff linuxHost).2 5 ⟨[1, 0, 0, 97, 98], rfl⟩ 5 _ (by decide) (by decide)
    (by decide) rfl).mpr (Or.inl (by decide))

/-- An abstract name that fills `sun_path`. -/
def fullName : Memory linuxHost.sockaddrUnSize := ⟨[1, 0] ++ List.replicate 108 0, rfl⟩

/-- Its terminator is written behind `sun_path`. -/
theorem unix_cast_not_inside :
    ¬∀ a, UnixAddress.Obtainable linuxHost a → a.StaysInside linuxHost := by
  intro h
  have hin := h ⟨List.replicate 108 0⟩ (.ofSockaddrUn fullName 110 _ (by decide) (by decide) rfl)
  have hcast := hin.1 fun _ => 0
  rw [toSockaddrUn_isSome] at hcast
  exact absurd hcast (by decide)

/-! ### Inside `sockaddr_storage` -/

/-- The cast of the address `y` stays inside a `sockaddr_storage`, and `bind`, `connect` and
`send` pass on a C structure that is decoded as the same address. -/
def PassedOn (s : World) (y : Nat) (a : UnixAddress) : Prop :=
  a.size ≤ 128 ∧ ∀ fr, ∃ st, decode pl st a.size = some (.ok (.unix a)) ∧
    (∀ x answer,
      World.bindAddress pl x fr y answer s = World.bind pl x st a.size answer s) ∧
    (∀ x answer,
      World.connectAddress pl x fr y answer s = World.connect pl x st a.size answer s) ∧
    ∀ x data flags answers, World.sendAddress pl x data fr y flags answers s =
      World.sendTo pl x data st a.size flags answers s

variable {pl}

lemma passedOn_iff {s : World} {y : Nat} {a : UnixAddress} (h : s.addr.Holds pl y (.unix a))
    (hpath : a.m_addr.length < pl.sunPathSize) : PassedOn pl s y a ↔ a.size ≤ 128 := by
  constructor
  · exact And.left
  · intro h128
    refine ⟨h128, fun fr => ?_⟩
    obtain ⟨st, hst, hholds⟩ :=
      UnixAddress.toSockaddrStorage_holds pl hpath h128 fr.struct fr.storage
    have hdecode : decode pl st a.size = some (.ok (.unix a)) := by
      rw [decode, ssFamily_of_slice hholds.family, Platform.familyOf_domainOf]
      simp only [AddressObject.ofStorage, ofSockaddrUn_of_holds h128 hholds, Option.map_some]
    exact ⟨st, hdecode, fun x answer => World.bindAddress_eq h hst answer,
      fun x answer => World.connectAddress_eq h hst answer,
      fun x data flags answers => World.sendAddress_eq h hst data flags answers⟩

/-- The size of a unix address that a `sockaddr_storage` has room for. -/
lemma UnixAddress.size_le_iff (a : UnixAddress) :
    a.size ≤ 128 ↔ a.m_addr.length ≤ 125 ∨ a.m_addr.length = 126 ∧ a.m_addr.head? = some 0 := by
  unfold UnixAddress.size
  by_cases h0 : a.m_addr.length = 0
  · rw [if_pos h0]
    omega
  · rw [if_neg h0]
    by_cases hc : a.m_addr.head? = some 0
    · rw [if_pos hc]
      simp only [hc, and_true]
      omega
    · rw [if_neg hc]
      simp only [hc, and_false, or_false]
      omega

/-- An address made from an accepted string is passed on exactly when the string has at most 125
bytes, or 126 the first of which is NUL. A POSIX build accepts no others. -/
theorem passed_on_iff (s : World) (y : Nat) (addrstr : List UInt8) (a : UnixAddress)
    (ha : UnixAddress.ofString pl addrstr = .ok a) (hy : s.addr.Holds pl y (.unix a)) :
    (PassedOn pl s y a ↔
      addrstr.length ≤ 125 ∨ addrstr.length = 126 ∧ addrstr.head? = some 0) ∧
    (pl.windows = false → PassedOn pl s y a) := by
  obtain ⟨hlt, rfl⟩ := UnixAddress.ofString_eq_ok.mp ha
  have hiff := (passedOn_iff hy hlt).trans (UnixAddress.size_le_iff _)
  refine ⟨hiff, fun hposix => hiff.mpr (Or.inl ?_)⟩
  have hsun : pl.sunPathSize = 108 := by simp [Platform.sunPathSize, hposix]
  simp only
  omega

/-- An address that holds a pathname, and nothing else. -/
def pathnameWorld (path : List UInt8) : World :=
  { World.initial true [] with
    addr := ⟨{ libraryUsers := 1, startups := 1 }, Store.empty.push (.unix ⟨path⟩),
      Store.empty.push ⟨1, some 0⟩⟩ }

lemma holds_pathnameWorld (path : List UInt8) :
    (pathnameWorld path).addr.Holds pl 0 (.unix ⟨path⟩) :=
  ⟨⟨1, some 0⟩, 0, rfl, rfl, rfl, rfl⟩

/-- The longest pathname that a POSIX build accepts. -/
theorem passed_on_iff_linux :
    PassedOn linuxHost (pathnameWorld (List.replicate 107 47)) 0 ⟨List.replicate 107 47⟩ :=
  (passed_on_iff _ 0 (List.replicate 107 47) _ rfl (holds_pathnameWorld _)).2 rfl

/-- A Windows build accepts a pathname of 126 bytes, which fills 129. -/
theorem not_passed_on : ¬∀ (s : World) (y : Nat) (addrstr : List UInt8) (a : UnixAddress),
    UnixAddress.ofString (numericHost true false true) addrstr = .ok a →
    s.addr.Holds (numericHost true false true) y (.unix a) →
    PassedOn (numericHost true false true) s y a := by
  intro h
  have hlen : (List.replicate 126 (47 : UInt8)).length < 180 := by simp
  have hpassed := h (pathnameWorld (List.replicate 126 47)) 0 (List.replicate 126 47) _
    (UnixAddress.ofString_eq_ok.mpr ⟨hlen, rfl⟩) (holds_pathnameWorld _)
  have hsize := (UnixAddress.size_le_iff _).mp hpassed.1
  simp at hsize

end SockLib
