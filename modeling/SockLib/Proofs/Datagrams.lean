import SockLib.Foundation.Runs
import SockLib.Model.Datagrams
import SockLib.Proofs.Bystanders

/-!
# Letters arrive as they were sent

Whatever the programs do in between, a socket receives the letters that were posted to its
endpoint: each one once, in their order, with the data that was given to `send`, and
with an address that names the endpoint it was sent from.
-/

namespace SockLib

variable {pl : Platform}

/-! ### What an address names -/

section Naming

variable {κ : Type} {w : Wire κ} {o o' : AddressObject} {st st' : SockaddrStorage}

/-- What the casts write for a value is the same for the kernel, whatever the locals held. -/
lemma sameBytes_of_encoded (hv : o.SameValue o') (h : o.EncodedIn pl st)
    (h' : o'.EncodedIn pl st') : SameBytes pl st st' o.size := by
  have hagree : st'.slice 0 o.size = st.slice 0 o.size := ((h.agree_iff h').mpr hv).2.symm
  have hfam : ssFamily pl st = pl.domainOf o.family := ssFamily_of_slice h.family
  unfold SameBytes
  split
  · next h4 =>
    have hfam' : o.family = .IPv4 := pl.domainOf_inj (hfam.symm.trans h4)
    obtain ⟨a, rfl⟩ : ∃ a, o' = .ipv4 a := by
      rw [hv.family_eq] at hfam'
      cases o' with
      | ipv4 a => exact ⟨a, rfl⟩
      | ipv6 a => cases hfam'
      | unix a => cases hfam'
    have hzero : st'.slice 8 8 = List.replicate 8 0 := HoldsIPv4.zero h'
    rw [show o.size = 16 from hv.size_eq] at hagree
    exact ⟨Memory.slice_eq_of_agree hagree (show 0 + 8 ≤ 16 by decide), hzero⟩
  · exact hagree

lemma encoded_of_toSockaddrStorage {fr : Frame} (hst : o.toSockaddrStorage pl fr = some st) :
    o.EncodedIn pl st := by
  obtain ⟨st₁, hst₁, henc⟩ :=
    AddressObject.toSockaddrStorage_encoded (fits_of_toSockaddrStorage hst) fr
  obtain rfl := Option.some.inj (hst.symm.trans hst₁)
  exact henc

/-- An address names what the kernel reads from any encoding of it. -/
lemma endpoint_eq (hw : w.Faithful pl) {fr : Frame} (hst : o.toSockaddrStorage pl fr = some st) :
    o.endpoint pl w = w.read st o.size := by
  obtain ⟨st₀, hst₀, henc₀⟩ := AddressObject.toSockaddrStorage_encoded
    (fits_of_toSockaddrStorage hst) ⟨fun _ => 0, fun _ => 0⟩
  have hsame := sameBytes_of_encoded (.refl o) (encoded_of_toSockaddrStorage hst) henc₀
  rw [AddressObject.endpoint, hst₀]
  exact hw st st₀ o.size hsame

/-- An address decoded from what the kernel reports names the endpoint. -/
lemma endpoint_of_reported (hw : w.Faithful pl) (hn : pl.NtopTotal) {len : Nat} {k : κ}
    (hr : w.Reports pl st len k) :
    ∃ o, decode pl st len = some (.ok o) ∧ o.endpoint pl w = some k := by
  obtain ⟨f, o, st', hf, -, ho, hsize, hst', hsame⟩ :=
    reencodes_of_canonical hn hr.1 ⟨fun _ => 0, fun _ => 0⟩
  refine ⟨o, ?_, ?_⟩
  · rw [decode, hf]
    exact ho
  · rw [endpoint_eq hw hst', hsize, hw st st' len hsame, hr.2]

end Naming

lemma Network.named_eq {κ : Type} (w : Wire κ) {s : Addresses} {x : Nat} {o : AddressObject}
    (hx : s.valueOf x = some (.set o)) : Network.named pl w s x = o.endpoint pl w := by
  obtain ⟨a, p, ha, hp, ho⟩ := Addresses.exists_of_valueOf_set hx
  simp only [Network.named, ha, hp, ho, Option.bind_eq_bind, Option.bind_some]

/-! ### What the members do -/

section Members

variable {s : World} {x to_ from_ bufSize len : Nat} {data : List UInt8} {fr : Frame}
  {st : SockaddrStorage} {v : Socket}

/-- Whatever system call is made last, it is told all of the data and the C structure of the
address. -/
def PassesAll (pl : Platform) (s : World) (data : List UInt8) (fr : Frame) (to_ : Nat)
    (t : World) : Prop :=
  ∀ fd piece flags st len rest, t.kernel.calls = .sendto fd piece flags st len :: rest →
    piece = data ∧
      ∃ o, s.addr.valueOf to_ = some (.set o) ∧ o.toSockaddrStorage pl fr = some st ∧ len = o.size

/-- A call of `send` that needs one system call passes all of its data. -/
lemma sendAddress_passes (data : List UInt8) (s : World) :
    Prog.wp (World.sendAddress pl x data fr to_ 0 [.ok (pl.callLength data.length)])
      (fun _ => PassesAll pl s data fr to_) (fun _ => PassesAll pl s data fr to_)
      (fun _ => True) (SocketOp.start s) := by
  rw [World.sendAddress, Prog.wp_bind, World.wp_addresses]
  apply Addresses.toSockaddrStorage_same
  intro a p o st ha hp ho hst
  rw [Prog.wp_bind, World.wp_addresses]
  refine (Addresses.wp_size_some ha hp ho).mpr ?_
  have hobj : s.addr.valueOf to_ = some (.set o) := Addresses.valueOf_set ha hp ho
  rw [World.sendTo, World.sendLoop, Prog.wp_ite]
  split
  · cases hx : s.socks.get x with
    | none =>
      have hx' : (SocketOp.start s).socks.get x = none := hx
      rw [Prog.wp_bind, World.request, Prog.wp_bind, World.wp_this_iff, hx']
      exact ⟨fun _ h => (by cases h), fun _ => trivial⟩
    | some v =>
      rw [Prog.wp_bind, World.wp_request (by exact hx)]
      refine ⟨fun r hr => ?_, fun _ hno => by cases hno⟩
      obtain rfl := Except.ok.inj hr
      rw [World.sendLoop, Prog.wp_ite]
      split
      · trivial
      · next hend =>
        have hall : pl.callLength data.length = data.length := by
          have hle := pl.callLength_le data.length
          omega
        have hpiece : World.nextPiece pl data 0 = data := by
          rw [World.nextPiece, Nat.sub_zero, hall, List.drop_zero, List.take_length]
        rw [hpiece]
        intro fd piece flags st' len' rest hcalls
        injection hcalls with hcall _
        injection hcall with _ hpassed _ hst' hlen'
        exact ⟨hpassed.symm, o, hobj, hst' ▸ hst, hlen'.symm⟩
  · intro fd piece flags st' len' rest hcalls
    cases hcalls

/-- Receiving returns the payload, and the address is replaced by one that names where the
payload came from. -/
lemma receiveFrom_names {κ : Type} {w : Wire κ} {k : κ} (hw : w.Faithful pl) (hn : pl.NtopTotal)
    (hs : pl.LibraryWorks) (hr : w.Reports pl st len k) {a : Address}
    (hx : s.socks.get x = some v) (hfrom : s.addr.vars.get from_ = some a)
    (hdata : data.length ≤ bufSize) :
    ∃ t o, World.receiveFrom pl x from_ bufSize 0 (.ok (data, st, len)) (SocketOp.start s) =
      .ok data t ∧ Addresses.Replaced pl from_ o s.addr t.addr ∧ o.endpoint pl w = some k := by
  obtain ⟨o, hdec, hnamed⟩ := endpoint_of_reported hw hn hr
  obtain ⟨u, hreplace, hreplaced⟩ := Addresses.replaceAddress_spec hs hfrom hdec
  have hx' : (SocketOp.start s).socks.get x = some v := hx
  refine ⟨{ (SocketOp.start s).called
      (.recvfrom v.m_sockFD (pl.callLength bufSize) (0 ||| pl.MSG_NOSIGNAL)) with addr := u },
    o, ?_, hreplaced, hnamed⟩
  rw [receiveFrom_eq bufSize 0 data hx', World.receivedVector_of_le hdata]
  exact Prog.bind_of_ok (Prog.zoom_of_ok hreplace)

end Members

/-! ### What is kept -/

/-- A receipt tells of a letter: where it came from, and its data as far as there was room. -/
def Receipt.tellsOf {κ : Type} (r : Receipt κ) (letter : Letter κ) : Prop :=
  r.from_ = some letter.source ∧ r.data = letter.data.take r.bufSize

namespace Network

variable {κ : Type} [DecidableEq κ] {w : Wire κ} {n m : Network κ} {i x : Nat} {k : κ}

/-- The letters that were sent to an endpoint, as `send` was called. -/
def sentTo (n : Network κ) (k : κ) : List (Letter κ) :=
  (n.sent.filter fun m => m.to_ = some k).map fun m => ⟨m.source, m.data⟩

/-- What is received at a descriptor are the first letters that have come for its endpoint, and
these have been sent there in this order. -/
structure Delivers (n : Network κ) : Prop where
  received : ∀ i, ∃ letters, List.Forall₂ Receipt.tellsOf (n.received i) letters ∧
    letters ++ n.inbox i = n.posted i
  sent : ∀ i k, n.home i = some k → (n.posted i).Sublist (n.sentTo k)
  homeless : ∀ i, n.home i = none → n.posted i = []

/-- Nothing on the network has changed. -/
def SameMail (n m : Network κ) : Prop :=
  m.home = n.home ∧ m.inbox = n.inbox ∧ m.sent = n.sent ∧ m.posted = n.posted ∧
    m.received = n.received

lemma Delivers.of_sameMail (h : n.Delivers) (hm : n.SameMail m) : m.Delivers := by
  obtain ⟨home, inbox, sent, posted, received⟩ := hm
  constructor
  · intro i
    rw [received, inbox, posted]
    exact h.received i
  · intro i k hk
    rw [posted, sentTo, sent]
    exact h.sent i k (home ▸ hk)
  · intro i hi
    rw [posted]
    exact h.homeless i (home ▸ hi)

lemma Delivers.settle (h : n.Delivers) (hm : n.settle i k = some m) : m.Delivers := by
  unfold Network.settle at hm
  split at hm
  · next hfree =>
    cases hm
    constructor
    · exact h.received
    · intro j k' hj
      by_cases hji : j = i
      · have hempty : n.posted j = [] := h.homeless j (hji ▸ hfree.2.1)
        rw [hempty]
        exact List.nil_sublist _
      · exact h.sent j k' ((Function.update_of_ne hji _ _).symm.trans hj)
    · intro j hj
      by_cases hji : j = i
      · exact h.homeless j (hji ▸ hfree.2.1)
      · exact h.homeless j ((Function.update_of_ne hji _ _).symm.trans hj)
  · cases hm

lemma home_of_holder (h : n.holder k = some i) : n.home i = some k := by
  have hp := List.find?_some h
  simp only [Bool.and_eq_true, beq_iff_eq] at hp
  exact hp.2

/-- A letter that is sent may be lost on its way, and is in the record in any case. -/
lemma Delivers.send (h : n.Delivers) (s : World) (letter : Letter κ) (delivered : Bool) :
    let m : Network κ := { n with
      program := s, sent := n.sent ++ [⟨letter.source, some k, letter.data⟩] }
    (if delivered then m.post letter k else m).Delivers := by
  intro m
  have hsent : ∀ k', (n.sentTo k').Sublist (m.sentTo k') := by
    intro k'
    simp only [sentTo, m, List.filter_append, List.map_append]
    exact List.sublist_append_left _ _
  have hm : m.Delivers :=
    ⟨h.received, fun i k' hk => (h.sent i k' hk).trans (hsent k'), h.homeless⟩
  cases delivered with
  | false => exact hm
  | true =>
    change (m.post letter k).Delivers
    unfold post
    split
    · next j hj =>
      have hhome : n.home j = some k := home_of_holder (n := m) hj
      constructor
      · intro i
        obtain ⟨letters, hr, heq⟩ := h.received i
        refine ⟨letters, hr, ?_⟩
        change letters ++ Function.update n.inbox j _ i = Function.update n.posted j _ i
        by_cases hij : i = j
        · subst hij
          rw [Function.update_self, Function.update_self]
          change letters ++ (n.inbox i ++ [letter]) = n.posted i ++ [letter]
          rw [← heq, List.append_assoc]
        · rw [Function.update_of_ne hij, Function.update_of_ne hij]
          exact heq
      · intro i k' hk
        change (Function.update n.posted j _ i).Sublist _
        by_cases hij : i = j
        · subst hij
          obtain rfl : k = k' := Option.some.inj (hhome.symm.trans hk)
          rw [Function.update_self]
          simp only [sentTo, m, List.filter_append, List.map_append]
          exact (h.sent i k hk).append (by simp)
        · rw [Function.update_of_ne hij]
          exact (h.sent i k' hk).trans (hsent k')
      · intro i hi
        change Function.update n.posted j _ i = []
        have hij : i ≠ j := by
          rintro rfl
          rw [show n.home i = some k from hhome] at hi
          cases hi
        rw [Function.update_of_ne hij]
        exact h.homeless i hi
    · exact hm

lemma Delivers.receive (h : n.Delivers) {letter : Letter κ} {rest : List (Letter κ)}
    (hi : n.inbox i = letter :: rest) (s : World) {r : Receipt κ} (hr : r.tellsOf letter) :
    Delivers { n with
      program := s
      inbox := Function.update n.inbox i rest
      received := Function.update n.received i (n.received i ++ [r]) } := by
  refine ⟨fun j => ?_, h.sent, h.homeless⟩
  obtain ⟨letters, hrs, heq⟩ := h.received j
  by_cases hji : j = i
  · subst hji
    refine ⟨letters ++ [letter], ?_, ?_⟩
    · simp only [Function.update_self]
      exact List.rel_append hrs (.cons hr .nil)
    · simp only [Function.update_self]
      rw [← heq, hi, List.append_assoc]
      rfl
  · refine ⟨letters, ?_, ?_⟩
    · simpa only [Function.update_of_ne hji] using hrs
    · simpa only [Function.update_of_ne hji] using heq

/-! ### Steps -/

lemma Delivers.withProgram (h : n.Delivers) (s : World) : Delivers { n with program := s } :=
  h.of_sameMail ⟨rfl, rfl, rfl, rfl, rfl⟩

lemma delivers_of_bind (h : n.Delivers) {fr : Frame} {address : Nat} {answer : Except Int Unit}
    (hm : n.bind pl w x fr address answer = some m) : m.Delivers := by
  obtain ⟨s, -, hm⟩ := Option.bind_eq_some_iff.mp hm
  have hs := h.withProgram s
  split at hm
  · split at hm
    · obtain ⟨i, -, hm⟩ := Option.bind_eq_some_iff.mp hm
      exact hs.settle hm
    · cases hm
      exact hs
  · cases hm
    exact hs

lemma delivers_of_localAddress (h : n.Delivers) {answer : NameAnswer}
    (hm : n.localAddress pl w x answer = some m) : m.Delivers := by
  cases answer with
  | error e =>
    obtain ⟨s, -, hm⟩ := Option.bind_eq_some_iff.mp hm
    cases hm
    exact h.withProgram s
  | ok r =>
    obtain ⟨i, -, hm⟩ := Option.bind_eq_some_iff.mp hm
    obtain ⟨k, -, hm⟩ := Option.bind_eq_some_iff.mp hm
    split at hm
    · obtain ⟨s, -, hm⟩ := Option.bind_eq_some_iff.mp hm
      cases hm
      exact h.withProgram s
    · cases hm

lemma delivers_of_send (hw : w.Faithful pl) (h : n.Delivers) {data : List UInt8} {fr : Frame}
    {to_ : Nat} {answer : Except Int Unit} {delivered : Bool}
    (hm : n.send pl w x data fr to_ answer delivered = some m) : m.Delivers := by
  obtain ⟨s, hs, hm⟩ := Option.bind_eq_some_iff.mp hm
  split at hm
  · next piece _ st len rest hcalls _ =>
    obtain ⟨i, -, hm⟩ := Option.bind_eq_some_iff.mp hm
    obtain ⟨source, -, hm⟩ := Option.bind_eq_some_iff.mp hm
    obtain ⟨k, hk, hm⟩ := Option.bind_eq_some_iff.mp hm
    cases hm
    obtain ⟨rfl, o, hobj, hst, rfl⟩ :=
      Prog.resume_of_wp (sendAddress_passes data n.program) hs _ _ _ _ _ _ hcalls
    rw [named_eq w hobj, endpoint_eq hw hst, hk]
    exact h.send s ⟨source, piece⟩ delivered
  · cases hm
    exact h.withProgram s

lemma delivers_of_receive (hw : w.Faithful pl) (hn : pl.NtopTotal) (hs : pl.LibraryWorks)
    (h : n.Delivers) {from_ bufSize : Nat} {answer : NameAnswer}
    (hm : n.receive pl w x from_ bufSize answer = some m) : m.Delivers := by
  cases answer with
  | error e =>
    obtain ⟨s, -, hm⟩ := Option.bind_eq_some_iff.mp hm
    cases hm
    exact h.withProgram s
  | ok r =>
    obtain ⟨st, len⟩ := r
    obtain ⟨i, hi, hm⟩ := Option.bind_eq_some_iff.mp hm
    obtain ⟨a, hfrom, hm⟩ := Option.bind_eq_some_iff.mp hm
    obtain ⟨v, hx, -⟩ := Option.bind_eq_some_iff.mp hi
    cases hbox : n.inbox i with
    | nil =>
      rw [hbox] at hm
      cases hm
    | cons letter rest =>
      simp only [hbox] at hm
      split at hm
      · next hr =>
        obtain ⟨t, o, ht, hreplaced, hnamed⟩ := receiveFrom_names hw hn hs hr hx hfrom
          (show (letter.data.take bufSize).length ≤ bufSize from List.length_take_le _ _)
        rw [ht] at hm
        cases hm
        have hfilled : named pl w t.addr from_ = some letter.source :=
          (named_eq w hreplaced.holds.valueOf).trans hnamed
        exact h.receive hbox t ⟨hfilled, rfl⟩
      · cases hm

lemma delivers_of_step (hw : w.Faithful pl) (hn : pl.NtopTotal) (hs : pl.LibraryWorks)
    (h : n.Delivers) {op : DatagramOp κ} (hm : n.step pl w op = some m) : m.Delivers := by
  cases op with
  | program op =>
    rw [step] at hm
    split at hm
    · cases hm
    · obtain ⟨s, -, rfl⟩ := Option.map_eq_some_iff.mp hm
      exact h.withProgram s
  | address op =>
    obtain ⟨a, -, rfl⟩ := Option.map_eq_some_iff.mp hm
    exact h.withProgram _
  | assign i k => exact h.settle hm
  | bind x fr address answer => exact delivers_of_bind h hm
  | localAddress x answer => exact delivers_of_localAddress h hm
  | send x data fr to_ answer delivered => exact delivers_of_send hw h hm
  | receive x from_ bufSize answer => exact delivers_of_receive hw hn hs h hm

lemma delivers_initial (autoInitialize : Bool) (files : List (List UInt8)) :
    Delivers (initial autoInitialize files : Network κ) where
  received _ := ⟨[], .nil, rfl⟩
  sent i k hk := by cases hk
  homeless _ _ := rfl

end Network

/-- However sends, receives and everything else interleave, what is received at a descriptor are
the first letters that came for its endpoint, each once and with its data, and these are
letters sent to this endpoint, in this order. -/
theorem letters_arrive {κ : Type} [DecidableEq κ] (w : Wire κ) (hw : w.Faithful pl)
    (hn : pl.NtopTotal) (hs : pl.LibraryWorks) (autoInitialize : Bool)
    (files : List (List UInt8)) (ops : List (DatagramOp κ)) :
    Along (Network.step pl w) Network.Delivers (Network.initial autoInitialize files) ops := by
  apply along_of_step (I := Network.Delivers) (fun _ h => h)
  · intro n op m h hm
    exact Network.delivers_of_step hw hn hs h hm
  · exact Network.delivers_initial autoInitialize files

/-! ### A network of pathnames -/

lemma kernelPath_of_sameBytes {st st' : SockaddrStorage} {len : Nat}
    (h : SameBytes pl st st' len) : kernelPath pl st' len = kernelPath pl st len := by
  have hlocal : ∀ l, 2 ≤ l → st'.slice 0 l = st.slice 0 l → ssFamily pl st' = ssFamily pl st := by
    intro l hl hagree
    rw [ssFamily, ssFamily, Memory.slice_eq_of_agree hagree (show 0 + 2 ≤ l by omega)]
  unfold SameBytes at h
  split at h
  · next h4 =>
    have hne : ¬(ssFamily pl st = pl.domainOf .unix ∧ 2 < len ∧ st.slice 2 1 ≠ [0]) := by
      intro hunix
      cases pl.domainOf_inj (h4.symm.trans hunix.1)
    have hne' : ¬(ssFamily pl st' = pl.domainOf .unix ∧ 2 < len ∧ st'.slice 2 1 ≠ [0]) := by
      intro hunix
      cases pl.domainOf_inj (h4.symm.trans ((hlocal 8 (by decide) h.1).symm.trans hunix.1))
    rw [kernelPath, kernelPath, if_neg hne, if_neg hne']
  · by_cases hlen : 2 < len
    · have hfirst := Memory.slice_eq_of_agree h (show 2 + 1 ≤ len by omega)
      have hrest := Memory.slice_eq_of_agree h (show 2 + (len - 2) ≤ len by omega)
      rw [kernelPath, kernelPath, hlocal len (by omega) h, hfirst, hrest]
    · rw [kernelPath, kernelPath, if_neg (fun hc => hlen hc.2.1), if_neg (fun hc => hlen hc.2.1)]

/-- A host whose only endpoints are pathnames. -/
def pathWire : Wire (List UInt8) := ⟨kernelPath linuxHost⟩

/-- Two bound sockets. The letter from `/a` to `/b` is received into a buffer of two bytes. -/
def threeBytesByMail : List (DatagramOp (List UInt8)) :=
  let fr : Frame := ⟨fun _ => 0, fun _ => 0⟩
  [.program (.library (.create 1 2 0 (.ok 3))), .program (.library (.create 1 2 0 (.ok 4))),
    .address (.ofBase fr (.unix ⟨bytes "/a"⟩)), .address (.ofBase fr (.unix ⟨bytes "/b"⟩)),
    .bind 0 fr 0 (.ok ()), .bind 1 fr 1 (.ok ()), .send 0 [1, 2, 3] fr 1 (.ok ()) true,
    .receive 1 1 2 (.ok (pathStorage, 5))]

theorem letters_arrive_linux :
    Along (Network.step linuxHost pathWire) Network.Delivers (Network.initial true [])
      threeBytesByMail :=
  letters_arrive pathWire (fun _ _ _ h => kernelPath_of_sameBytes h)
    (ntopTotal_numericHost false false true) (libraryWorks_numericHost false false true) true []
    threeBytesByMail

example :
    (run (Network.step linuxHost pathWire) (Network.initial true []) threeBytesByMail).map
      (fun n => (n.received 1).map fun r => (r.from_, r.data)) =
    some [(some [47, 97], [1, 2])] := by
  decide +kernel

end SockLib
