import SockLib.Model.Buffers
import SockLib.Proofs.Decoding
import SockLib.Proofs.Transmission

/-!
# The address a payload came from

Both overloads of `receive` with a source address decode a local `sockaddr_storage` after the
payload has left the kernel. How much of it the kernel has written is not looked at, nor
whether the kernel reports more bytes than it has written to the buffer.
-/

namespace SockLib

open World

variable (pl : Platform)

/-- The last part of both overloads: the address is replaced. -/
def replaceAddress (from_ : Nat) (addr : SockaddrStorage) (addrLen : Nat) : AddrProg Unit := do
  let tmp ← Addresses.ofStorage pl addr addrLen
  Addresses.moveAssign from_ tmp
  Addresses.destroy pl tmp

/-- Nothing is lost: what the kernel has written to the buffer is returned, and an error of the
system is thrown before anything has changed. -/
def KeepsData (s : World) (x from_ : Nat) (buf : List UInt8) (bufSize flags : Nat)
    (answer : Except Int (List UInt8 × SockaddrStorage × Nat)) : Prop :=
  match answer with
  | .ok (payload, _, _) =>
    let received := payload.take bufSize
    (∃ t, receiveFrom pl x from_ bufSize flags answer s = .ok received t) ∧
    ∃ t, receiveFromBuffer pl x from_ buf bufSize flags answer s =
      .ok (received.length, received ++ buf.drop received.length) t
  | .error errno =>
    ∃ call : Call,
      receiveFrom pl x from_ bufSize flags answer s = .throw (sysErr pl errno) (s.called call) ∧
      receiveFromBuffer pl x from_ buf bufSize flags answer s =
        .throw (sysErr pl errno) (s.called call)

/-- The family read from the local structure is supported, and the library can be entered. -/
def Nameable (l : Library) (addr : SockaddrStorage) : Prop :=
  (∃ f : Family, ssFamily pl addr = pl.domainOf f) ∧ ¬l.StartFails pl

section Replacement

variable {pl} {s : Addresses} {from_ addrLen : Nat} {a : Address} {addr : SockaddrStorage}

/-- With the system functions at work the decoders accept every structure of their family. -/
lemma makes_iff_nameable (hn : pl.NtopTotal) (hlen : addrLen ≤ 128) (l : Library) :
    Addresses.Makes pl l addr addrLen ↔ Nameable pl l addr := by
  constructor
  · rintro ⟨f, o, hf, -, hstart⟩
    exact ⟨⟨f, (pl.domainOf_of_familyOf hf).symm⟩, hstart⟩
  · rintro ⟨⟨f, hf⟩, hstart⟩
    obtain ⟨o, ho⟩ := exists_decode hn hlen hf
    have hfam : pl.familyOf (ssFamily pl addr) = some f := by
      rw [hf, Platform.familyOf_domainOf]
    rw [decode, hfam] at ho
    exact ⟨f, o, hfam, ho, hstart⟩

/-- The address is replaced when an object can be made. -/
lemma exists_replaced (hfrom : s.vars.get from_ = some a)
    (h : Addresses.Makes pl s.lib addr addrLen) :
    ∃ t, replaceAddress pl from_ addr addrLen s = .ok () t := by
  obtain ⟨f, o, hf, ho, hstart⟩ := h
  have hwp : Prog.wp (replaceAddress pl from_ addr addrLen) (fun _ _ => True) (fun _ _ => False)
      (fun _ => False) s := by
    rw [replaceAddress, Prog.wp_bind, Addresses.ofStorage, Addresses.wp_construct]
    refine (Addresses.wp_assign_blank pl (by exact s.vars.get_push_self _) rfl hf ho
      (by exact hstart)).mpr ?_
    have hnew := Store.get_push_of_some hfrom ⟨ssFamily pl addr, some s.heap.next⟩
    simp only [Store.push_put_next]
    refine (Addresses.wp_moveAssign_destroy pl (by exact hnew)
      (by exact s.vars.get_push_self _)).mpr ?_
    trivial
  obtain ⟨_, t, ht, -⟩ := Prog.exists_ok_of_wp hwp
  exact ⟨t, ht⟩

/-- Without an object to be made the replacement does not come to its end. -/
lemma not_replaced (h : ¬Addresses.Makes pl s.lib addr addrLen) (t : Addresses) :
    replaceAddress pl from_ addr addrLen s ≠ .ok () t := by
  have hwp : Prog.wp (replaceAddress pl from_ addr addrLen) (fun _ _ => False) (fun _ _ => True)
      (fun _ => True) s := by
    rw [replaceAddress, Prog.wp_bind, Addresses.ofStorage, Addresses.wp_construct]
    apply Addresses.assign_spec pl (s.vars.get_push_self _)
    · intro p hp
      cases hp
    · intro f o hf ho hstart
      exact absurd ⟨f, o, hf, ho, hstart⟩ h
    · intro _ _ _ _
      trivial
    · intro _ _
      trivial
    · intro _ _
      trivial
  intro ht
  rwa [Prog.wp, ht] at hwp

end Replacement

section Overloads

variable {pl} {s : World} {x from_ bufSize flags addrLen : Nat} {v : Socket}
  {buf payload : List UInt8} {addr : SockaddrStorage}

lemma receiveRaw_ok (hx : s.socks.get x = some v) (r : List UInt8 × SockaddrStorage × Nat) :
    receiveRaw pl x bufSize flags (.ok r) s =
      .ok r (s.called (.recvfrom v.m_sockFD (pl.callLength bufSize) (flags ||| pl.MSG_NOSIGNAL))) :=
  request_eq hx _ _

lemma receiveRaw_error (hx : s.socks.get x = some v) (bufSize flags : Nat) (errno : Int) :
    receiveRaw pl x bufSize flags (.error errno) s = .throw (sysErr pl errno)
      (s.called (.recvfrom v.m_sockFD (pl.callLength bufSize) (flags ||| pl.MSG_NOSIGNAL))) :=
  request_eq hx _ _

lemma writeBuffer_eq (h : payload.length ≤ buf.length) :
    writeBuffer buf payload s = .ok (payload ++ buf.drop payload.length) s := by
  rw [writeBuffer, if_pos h]
  rfl

/-- The vector overload returns its vector once the address has been replaced. -/
lemma receiveFrom_eq (bufSize flags : Nat) (payload : List UInt8)
    (hx : s.socks.get x = some v) :
    receiveFrom pl x from_ bufSize flags (.ok (payload, addr, addrLen)) s =
      (do
        addresses (replaceAddress pl from_ addr addrLen)
        pure (receivedVector bufSize payload) : SockProg (List UInt8))
        (s.called
          (.recvfrom v.m_sockFD (pl.callLength bufSize) (flags ||| pl.MSG_NOSIGNAL))) := by
  rw [receiveFrom, Prog.bind_of_ok (receiveRaw_ok hx _)]
  rfl

/-- The pointer overload fills the buffer and does the same. -/
lemma receiveFromBuffer_eq (flags : Nat) (hx : s.socks.get x = some v)
    (hpay : payload.length ≤ bufSize) (hbuf : bufSize ≤ buf.length) :
    receiveFromBuffer pl x from_ buf bufSize flags (.ok (payload, addr, addrLen)) s =
      (do
        addresses (replaceAddress pl from_ addr addrLen)
        pure (payload.length, payload ++ buf.drop payload.length) :
          SockProg (Nat × List UInt8))
        (s.called
          (.recvfrom v.m_sockFD (pl.callLength bufSize) (flags ||| pl.MSG_NOSIGNAL))) := by
  have hwrite : ∀ t, writeBuffer buf (payload.take bufSize) t =
      .ok (payload ++ buf.drop payload.length) t := by
    intro t
    rw [List.take_of_length_le hpay, writeBuffer_eq (by omega)]
  rw [receiveFromBuffer, Prog.bind_of_ok (receiveRaw_ok hx _)]
  exact Prog.bind_of_ok (hwrite _)

end Overloads

/-- Receiving with a source address loses no data exactly when every successful `recvfrom`
reports no more than fits the buffer and leaves a local structure that can be decoded. -/
theorem receive_keeps_data_iff (hn : pl.NtopTotal) (s : World) (x from_ : Nat) (v : Socket)
    (a : Address) (buf : List UInt8) (bufSize flags : Nat)
    (answer : Except Int (List UInt8 × SockaddrStorage × Nat)) (hx : s.socks.get x = some v)
    (hfrom : s.addr.vars.get from_ = some a) (hbuf : bufSize ≤ buf.length)
    (hanswer : ∀ payload addr addrLen, answer = .ok (payload, addr, addrLen) → addrLen ≤ 128) :
    KeepsData pl s x from_ buf bufSize flags answer ↔
      ∀ payload addr addrLen, answer = .ok (payload, addr, addrLen) →
        payload.length ≤ bufSize ∧ Nameable pl s.addr.lib addr := by
  cases answer with
  | error errno =>
    refine iff_of_true ?_ (fun _ _ _ h => by cases h)
    have hraw : receiveRaw pl x bufSize flags (.error errno) s = _ :=
      receiveRaw_error hx bufSize flags errno
    exact ⟨_, Prog.bind_of_throw hraw, Prog.bind_of_throw hraw⟩
  | ok r =>
    obtain ⟨payload, addr, addrLen⟩ := r
    have hlen := hanswer payload addr addrLen rfl
    constructor
    · rintro ⟨⟨t, ht⟩, -⟩ _ _ _ h
      cases h
      rw [receiveFrom_eq bufSize flags payload hx] at ht
      obtain ⟨⟨⟩, u, hu, hpure⟩ := Prog.exists_ok_of_bind ht
      constructor
      · -- The vector is as long as what is reported.
        have hvector : receivedVector bufSize payload = payload.take bufSize :=
          (Outcome.ok.inj hpure).1
        have hsame := congrArg List.length hvector
        rw [length_receivedVector, List.length_take] at hsame
        omega
      · rw [← makes_iff_nameable hn hlen]
        by_contra hmakes
        obtain ⟨w, hw, -⟩ := Prog.exists_ok_of_zoom hu
        exact not_replaced hmakes w hw
    · intro h
      obtain ⟨hpay, hname⟩ := h payload addr addrLen rfl
      have hmakes := (makes_iff_nameable hn hlen _).mpr hname
      obtain ⟨t, ht⟩ := exists_replaced hfrom hmakes
      rw [KeepsData, List.take_of_length_le hpay]
      constructor
      · have hvector := (receiveFrom_eq bufSize flags payload hx).trans
          (Prog.bind_of_ok (Prog.zoom_of_ok ht))
        rw [receivedVector_of_le hpay] at hvector
        exact ⟨_, hvector⟩
      · have hpointer := (receiveFromBuffer_eq flags hx hpay hbuf).trans
          (Prog.bind_of_ok (Prog.zoom_of_ok ht))
        exact ⟨_, hpointer⟩

/-- A program with a socket and an address without an object. -/
def socketAndAddress : World :=
  { oneSocket with addr := ⟨{}, Store.empty, Store.empty.push ⟨255, none⟩⟩ }

set_option maxRecDepth 4000 in
/-- Three bytes from the address in `pathStorage`. -/
theorem receive_keeps_data_iff_linux :
    KeepsData linuxHost socketAndAddress 0 0 [0, 0, 0, 0] 4 0
      (.ok ([1, 2, 3], pathStorage, 5)) := by
  have hanswer : ∀ payload addr addrLen,
      (.ok ([1, 2, 3], pathStorage, 5) : Except Int (List UInt8 × SockaddrStorage × Nat)) =
        .ok (payload, addr, addrLen) → addrLen ≤ 128 := by
    intro _ _ _ h
    cases h
    decide
  refine (receive_keeps_data_iff linuxHost (ntopTotal_numericHost false false true)
    socketAndAddress 0 0 ⟨true, 3, 2, 1, 0⟩ ⟨255, none⟩ [0, 0, 0, 0] 4 0 _ rfl rfl (by decide)
    hanswer).mpr ?_
  intro _ _ _ h
  cases h
  exact ⟨by decide, ⟨.unix, rfl⟩, fun hstart => by cases hstart.2.2.1⟩

set_option maxRecDepth 4000 in
/-- Without a source address the payload is lost. -/
theorem receive_loses_data : ¬∀ (payload : List UInt8) (addr : SockaddrStorage) (addrLen : Nat),
    payload.length ≤ 4 → addrLen ≤ 128 →
      KeepsData linuxHost socketAndAddress 0 0 [0, 0, 0, 0] 4 0 (.ok (payload, addr, addrLen)) := by
  intro h
  obtain ⟨⟨t, ht⟩, -⟩ := h [1, 2, 3] (Memory.uninit 128 fun _ => 0) 0 (by decide) (by decide)
  cases ht

end SockLib
