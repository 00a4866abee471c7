import SockLib.Model.NumericHost
import SockLib.Model.Options
import SockLib.Proofs.RoundTrip
import SockLib.Proofs.SocketRules

/-!
# Reading options back

What a getter returns after a setter depends on what its two locals held: the length decides
how much is copied, and the variable supplies the bytes that are not.
-/

namespace SockLib

variable (pl : Platform)

/-! ### Values in memory -/

section Values

lemma int32OfBytes_int32Bytes (v : Int32) : int32OfBytes pl (int32Bytes pl v) = v := by
  have hv : UInt32.ofNat (intOfBytes pl.bigEndian (intBytes pl.bigEndian 4 v.toUInt32.toNat)) =
      v.toUInt32 := ofNat_u32Bytes pl v.toUInt32
  change (UInt32.ofNat (intOfBytes pl.bigEndian
    (intBytes pl.bigEndian 4 v.toUInt32.toNat))).toInt32 = v
  rw [hv]
  rfl

lemma int32Bytes_int32OfBytes (m : Memory 4) : int32Bytes pl (int32OfBytes pl m) = m := by
  have hlt : intOfBytes pl.bigEndian m.toList < 2 ^ 32 := intOfBytes_lt _ m.toList_length
  apply Subtype.ext
  change intBytes pl.bigEndian 4 (UInt32.ofNat (intOfBytes pl.bigEndian m.toList)).toNat = m.toList
  rw [UInt32.toNat_ofNat', Nat.mod_eq_of_lt hlt, intBytes_intOfBytes _ m.toList_length]

/-- A number is read from four bytes exactly when they are its own. -/
lemma int32OfBytes_eq_iff {m : Memory 4} {v : Int32} :
    int32OfBytes pl m = v ↔ m = int32Bytes pl v := by
  constructor
  · rintro rfl
    exact (int32Bytes_int32OfBytes pl m).symm
  · rintro rfl
    exact int32OfBytes_int32Bytes pl v

lemma boolOfByte_eq_some {b : UInt8} {v : Bool} :
    boolOfByte b = some v ↔ b = if v then 1 else 0 := by
  unfold boolOfByte
  by_cases h0 : b = 0
  · cases v <;> simp [h0]
  · by_cases h1 : b = 1
    · cases v <;> simp [h1]
    · cases v <;> simp [h0, h1]

/-- The first byte of a flag in four bytes. -/
lemma take_flagBytes (big v : Bool) :
    (intBytes big 4 (if v then (1 : Int32) else 0).toUInt32.toNat).take 1 =
      [if big = false ∧ v = true then 1 else 0] := by
  cases big <;> cases v <;> decide

end Values

namespace OptionWorld

variable {s t : OptionWorld} {x : Nat} {sock : Socket} {level option : Int}

/-! ### Setting and reading -/

/-- The state after a successful `setsockopt`. -/
def stored (s : OptionWorld) (fd level option : Int) (value : Memory 4) : OptionWorld where
  world := s.world.called (.setsockopt fd level option value.toList)
  kept := keep s.kept fd level option value

lemma this_eq (hx : s.world.socks.get x = some sock) : sockets (World.this x) s = .ok sock s :=
  Prog.zoom_of_ok (World.this_eq hx)

lemma setsockopt_eq (hx : s.world.socks.get x = some sock) (value : Memory 4) :
    setsockopt pl x level option value (.ok ()) s =
      .ok () (s.stored sock.m_sockFD level option value) := by
  refine (Prog.bind_of_ok (this_eq hx)).trans ?_
  exact Prog.bind_of_ok (Prog.zoom_of_ok (World.request_eq hx _ _))

variable (level option) in
/-- Reading what has just been set stores a part of it into the variable. -/
lemma getsockopt_stored (hx : s.world.socks.get x = some sock) (kept : Memory 4) {n : Nat}
    (value : Memory n) (len : UInt32) :
    ∃ u, getsockopt pl x level option value len (.ok ())
        (s.stored sock.m_sockFD level option kept) =
      Prog.demand (value.store 0 (kept.slice 0 (min len.toNat 4))) .outOfBounds u := by
  have hkept : keep s.kept sock.m_sockFD level option kept sock.m_sockFD level option = kept :=
    if_pos ⟨rfl, rfl, rfl⟩
  refine ⟨{ s.stored sock.m_sockFD level option kept with
    world := (s.stored sock.m_sockFD level option kept).world.called
      (.getsockopt sock.m_sockFD level option) }, ?_⟩
  refine (Prog.bind_of_ok (this_eq (s := s.stored _ _ _ _) hx)).trans ?_
  refine (Prog.bind_of_ok rfl).trans ?_
  refine (Prog.bind_of_ok (Prog.zoom_of_ok (World.request_eq (by exact hx) _ _))).trans ?_
  change Prog.demand (value.store 0 ((keep s.kept sock.m_sockFD level option kept sock.m_sockFD
    level option).slice 0 (min len.toNat 4))) _ _ = _
  rw [hkept]

/-- After a successful `set` no more than `room` bytes are copied, and `get` returns the value. -/
def ReadsBack {α : Type} (s : OptionWorld) (len : UInt32) (room : Nat) (set : OptionProg Unit)
    (get : OptionProg α) (v : α) : Prop :=
  ∀ t, set s = .ok () t → min len.toNat 4 ≤ room ∧ ∃ u, get t = .ok v u

/-- One byte is copied and it is the one that tells the flag, or none is and the variable
happened to hold the flag. -/
def FlagReadable (v : Bool) (value : Memory 1) (len : UInt32) : Prop :=
  (len.toNat = 0 ∧ value.head = if v then 1 else 0) ∨
  (len.toNat = 1 ∧ (pl.bigEndian = true → v = false))

/-- The variable happened to hold the bytes of the number that are not copied. -/
def NumberReadable (v : Int32) (value : Memory 4) (len : UInt32) : Prop :=
  value.toList.drop len.toNat = (int32Bytes pl v).toList.drop len.toNat

lemma readsBack_iff {α : Type} {len : UInt32} {room : Nat} {set : OptionProg Unit}
    {get : OptionProg α} {v : α} (h : set s = .ok () t) :
    ReadsBack s len room set get v ↔ min len.toNat 4 ≤ room ∧ ∃ u, get t = .ok v u := by
  constructor
  · intro hback
    exact hback t h
  · intro hget t' ht'
    rw [h] at ht'
    cases ht'
    exact hget

/-- What the variable holds after a part of an option has been copied to its start. -/
lemma store_slice {n : Nat} {value m : Memory n} {kept : Memory 4} {len : UInt32}
    (h : value.store 0 (kept.slice 0 (min len.toNat 4)) = some m) :
    m.toList = kept.toList.take len.toNat ++ value.toList.drop (min len.toNat 4) := by
  obtain ⟨-, hm⟩ := Memory.toList_of_store h
  have hlen : (kept.slice 0 (min len.toNat 4)).length = min len.toNat 4 :=
    kept.length_slice (by omega)
  have hslice : kept.slice 0 (min len.toNat 4) = kept.toList.take len.toNat := by
    rw [List.take_eq_take_min, kept.toList_length]
    rfl
  rw [hm, hlen, hslice, Nat.zero_add, List.take_zero, List.nil_append]

lemma store_slice_isSome {n : Nat} (value : Memory n) (kept : Memory 4) (len : UInt32) :
    (∃ m, value.store 0 (kept.slice 0 (min len.toNat 4)) = some m) ↔ min len.toNat 4 ≤ n := by
  rw [← Option.isSome_iff_exists, Memory.store_isSome, kept.length_slice (by omega), Nat.zero_add]

lemma head_of_toList {m : Memory 1} {c : UInt8} (h : m.toList = [c]) : m.head = c := by
  obtain rfl : m = ⟨[c], rfl⟩ := Subtype.ext h
  rfl

/-- A program that reads an option ends as it goes on from what is in the variable. -/
lemma get_iff {α : Type} (hx : s.world.socks.get x = some sock) (kept : Memory 4) {n : Nat}
    (value : Memory n) (len : UInt32) {f : Memory n → OptionProg α} {v : α} {P : Memory n → Prop}
    (hf : ∀ m u, (∃ w, f m u = .ok v w) ↔ P m) :
    (∃ w, (getsockopt pl x level option value len (.ok ()) >>= f)
        (s.stored sock.m_sockFD level option kept) = .ok v w) ↔
      ∃ m, value.store 0 (kept.slice 0 (min len.toNat 4)) = some m ∧ P m := by
  obtain ⟨u, hu⟩ := getsockopt_stored pl level option hx kept value len
  cases hm : value.store 0 (kept.slice 0 (min len.toNat 4)) with
  | none =>
    rw [hm] at hu
    rw [Prog.bind_of_fault hu]
    constructor
    · rintro ⟨w, hw⟩
      cases hw
    · rintro ⟨m, hnone, -⟩
      cases hnone
  | some m =>
    rw [hm] at hu
    rw [Prog.bind_of_ok hu, hf]
    constructor
    · intro hp
      exact ⟨m, rfl, hp⟩
    · rintro ⟨m', hm', hp⟩
      cases hm'
      exact hp

lemma demand_iff {α : Type} {o : Option α} {k : Fault} {v : α} (u : OptionWorld) :
    (∃ w, (Prog.demand o k : OptionProg α) u = .ok v w) ↔ o = some v := by
  cases o with
  | none =>
    constructor
    · rintro ⟨w, hw⟩
      cases hw
    · intro h
      cases h
  | some a =>
    constructor
    · rintro ⟨w, hw⟩
      cases hw
      rfl
    · intro h
      cases h
      exact ⟨u, rfl⟩

/-- The byte of a flag variable into which at most one byte has been copied. -/
lemma exists_flagByte (v : Bool) (value : Memory 1) {len : UInt32} (hroom : min len.toNat 4 ≤ 1) :
    ∃ m, value.store 0 ((int32Bytes pl (if v then 1 else 0)).slice 0 (min len.toNat 4)) = some m ∧
      m.head = if len.toNat = 0 then value.head
        else if pl.bigEndian = false ∧ v = true then 1 else 0 := by
  obtain ⟨m, hm⟩ := (store_slice_isSome value (int32Bytes pl (if v then 1 else 0)) len).mpr hroom
  have hbytes := store_slice hm
  obtain ⟨c, hc⟩ := List.length_eq_one_iff.mp value.toList_length
  refine ⟨m, hm, ?_⟩
  rcases (show len.toNat = 0 ∨ len.toNat = 1 by omega) with h0 | h1
  · rw [h0, hc] at hbytes
    rw [if_pos h0, head_of_toList hbytes, head_of_toList hc]
  · rw [h1, hc] at hbytes
    rw [if_neg (by omega)]
    exact head_of_toList (hbytes.trans (congrArg (· ++ []) (take_flagBytes pl.bigEndian v)))

lemma flag_readsBack_iff (hx : s.world.socks.get x = some sock) (len : UInt32)
    (option : BoolOption) (v : Bool) (value : Memory 1) :
    ReadsBack s len 1 (setBoolOption pl x option v level (.ok ()))
        (getBoolOption pl x option level value len (.ok ())) v ↔ FlagReadable pl v value len := by
  rw [setBoolOption, readsBack_iff (setsockopt_eq pl hx _), getBoolOption,
    get_iff pl hx _ _ _ fun m u => demand_iff u]
  by_cases hroom : min len.toNat 4 ≤ 1
  · obtain ⟨m, hm, hhead⟩ := exists_flagByte pl v value hroom
    have hiff : (∃ m', value.store 0 ((int32Bytes pl (if v then 1 else 0)).slice 0
        (min len.toNat 4)) = some m' ∧ boolOfByte m'.head = some v) ↔
        m.head = if v then 1 else 0 := by
      rw [hm, ← boolOfByte_eq_some]
      constructor
      · rintro ⟨m', hm', hv⟩
        cases hm'
        exact hv
      · intro hv
        exact ⟨m, rfl, hv⟩
    rw [and_iff_right hroom, hiff, hhead, FlagReadable]
    rcases (show len.toNat = 0 ∨ len.toNat = 1 by omega) with h0 | h1
    · simp [h0]
    · cases v <;> simp [h1]
  · apply iff_of_false
    · rintro ⟨hle, -⟩
      exact hroom hle
    · rintro (⟨h0, -⟩ | ⟨h1, -⟩) <;> omega

lemma number_readsBack_iff (hx : s.world.socks.get x = some sock) (len : UInt32)
    (option : IntOption) (v : Int32) (value : Memory 4) :
    ReadsBack s len 4 (setIntOption pl x option v level (.ok ()))
        (getIntOption pl x option level value len (.ok ())) v ↔
      NumberReadable pl v value len := by
  have hpure : ∀ (m : Memory 4) (u : OptionWorld),
      (∃ w, (pure (int32OfBytes pl m) : OptionProg Int32) u = .ok v w) ↔
        m = int32Bytes pl v := by
    intro m u
    rw [← int32OfBytes_eq_iff]
    constructor
    · rintro ⟨w, hw⟩
      cases hw
      rfl
    · rintro rfl
      exact ⟨u, rfl⟩
  have hroom : min len.toNat 4 ≤ 4 := Nat.min_le_right _ _
  rw [setIntOption, readsBack_iff (setsockopt_eq pl hx _), getIntOption,
    get_iff pl hx _ _ _ hpure, and_iff_right hroom]
  obtain ⟨m, hm⟩ := (store_slice_isSome value (int32Bytes pl v) len).mpr hroom
  have hbytes := store_slice hm
  have hrest : value.toList.drop (min len.toNat 4) = value.toList.drop len.toNat := by
    rcases Nat.le_total len.toNat 4 with hle | hge
    · rw [Nat.min_eq_left hle]
    · rw [Nat.min_eq_right hge, List.drop_eq_nil_of_le (by simp),
        List.drop_eq_nil_of_le (by simpa using hge)]
  rw [hrest] at hbytes
  rw [hm, NumberReadable]
  constructor
  · rintro ⟨m', hm', rfl⟩
    cases hm'
    have hparts := (List.take_append_drop len.toNat (int32Bytes pl v).toList).symm
    exact List.append_cancel_left (hbytes.symm.trans hparts)
  · intro hdrop
    refine ⟨m, rfl, Subtype.ext ?_⟩
    change m.toList = (int32Bytes pl v).toList
    rw [hbytes, hdrop, List.take_append_drop]

/-- An option is read back exactly when the locals of the getter happen to allow it. -/
theorem option_reads_back_iff (s : OptionWorld) (x : Nat) (sock : Socket)
    (hx : s.world.socks.get x = some sock) (level : Int) (len : UInt32) :
    (∀ (option : BoolOption) (v : Bool) (value : Memory 1),
      ReadsBack s len 1 (setBoolOption pl x option v level (.ok ()))
          (getBoolOption pl x option level value len (.ok ())) v ↔ FlagReadable pl v value len) ∧
    ∀ (option : IntOption) (v : Int32) (value : Memory 4),
      ReadsBack s len 4 (setIntOption pl x option v level (.ok ()))
          (getIntOption pl x option level value len (.ok ())) v ↔ NumberReadable pl v value len :=
  ⟨flag_readsBack_iff pl hx len, number_readsBack_iff pl hx len⟩

/-- One socket, with options of which nothing is known to be set. -/
def oneSocket : OptionWorld where
  world := { World.initial true [] with socks := Store.empty.push ⟨true, 3, 2, 1, 0⟩ }
  kept := fun _ _ _ => ⟨[0, 0, 0, 0], rfl⟩

/-- A buffer size, where the uninitialised length is at least that of an `int`. -/
theorem option_reads_back_iff_linux : ReadsBack oneSocket 28 4
    (setIntOption linuxHost 0 .receiveBufferSize 65536 1 (.ok ()))
    (getIntOption linuxHost 0 .receiveBufferSize 1 ⟨[7, 7, 7, 7], rfl⟩ 28 (.ok ())) 65536 :=
  ((option_reads_back_iff linuxHost oneSocket 0 _ rfl 1 28).2 .receiveBufferSize 65536 _).mpr rfl

/-- With a length of 28 the flag getter writes behind its variable, and with one of 0 the number
getter returns what was in its variable. -/
theorem option_does_not_read_back :
    (¬∀ (option : BoolOption) (v : Bool) (value : Memory 1) (len : UInt32),
      ReadsBack oneSocket len 1 (setBoolOption linuxHost 0 option v 1 (.ok ()))
        (getBoolOption linuxHost 0 option 1 value len (.ok ())) v) ∧
    ¬∀ (option : IntOption) (v : Int32) (value : Memory 4) (len : UInt32),
      ReadsBack oneSocket len 4 (setIntOption linuxHost 0 option v 1 (.ok ()))
        (getIntOption linuxHost 0 option 1 value len (.ok ())) v := by
  constructor
  · intro h
    obtain ⟨hroom, -⟩ := h .keepAlive true ⟨[0], rfl⟩ 28 _ rfl
    exact absurd hroom (by decide)
  · intro h
    obtain ⟨-, u, hu⟩ := h .receiveBufferSize 65536 ⟨[7, 7, 7, 7], rfl⟩ 0 _ rfl
    cases hu

end OptionWorld

end SockLib
