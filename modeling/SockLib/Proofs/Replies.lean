import SockLib.Proofs.Datagrams

/-!
# Replies go back

An address that `receive` has filled stands for the socket that the letter came from, and so
does every copy of it, and whatever it is moved to. What is sent to it goes there.
-/

namespace SockLib

variable {pl : Platform} {κ : Type} {w : Wire κ}

/-! ### Where values come from -/

variable (pl w) in
/-- The endpoint that a variable with this value names. -/
def AddressValue.endpoint : AddressValue → Option κ
  | .blank _ => none
  | .set o => o.endpoint pl w

/-- The origins of the variables after an operation. Copies and moves take them along, and
what a program makes of its own has none. -/
def ValueOp.inherits (next : Nat) (f : Nat → Option κ) : ValueOp → Nat → Option κ
  | .copy y => Function.update f next (f y)
  | .move y => Function.update (Function.update f next (f y)) y none
  | .copyAssign x y => Function.update f x (f y)
  | .moveAssign x y => Function.update (Function.update f x (f y)) y none
  | .assign x _ _ => Function.update f x none
  | .destroy x => Function.update f x none
  | _ => Function.update f next none

/-- An encoding of the same value is read as the same endpoint. -/
lemma endpoint_of_sameValue (hw : w.Faithful pl) {o o' : AddressObject} (h : o.SameValue o')
    {k : κ} (hk : o.endpoint pl w = some k) : o'.endpoint pl w = some k := by
  obtain ⟨st, hst, hread⟩ := Option.bind_eq_some_iff.mp hk
  obtain ⟨st', hst', henc'⟩ := AddressObject.toSockaddrStorage_encoded
    (h.fits pl (fits_of_toSockaddrStorage hst)) ⟨fun _ => 0, fun _ => 0⟩
  have hsame := sameBytes_of_encoded h (encoded_of_toSockaddrStorage hst) henc'
  rw [endpoint_eq hw hst', ← h.size_eq, hw st st' o.size hsame, hread]

/-- An address that names an endpoint can be encoded, and is read as that endpoint. -/
lemma exists_read (hw : w.Faithful pl) {o : AddressObject} {k : κ}
    (hk : o.endpoint pl w = some k) (fr : Frame) :
    ∃ st, o.toSockaddrStorage pl fr = some st ∧ w.read st o.size = some k := by
  obtain ⟨st₀, hst₀, -⟩ := Option.bind_eq_some_iff.mp hk
  obtain ⟨st, hst, -⟩ :=
    AddressObject.toSockaddrStorage_encoded (fits_of_toSockaddrStorage hst₀) fr
  exact ⟨st, hst, (endpoint_eq hw hst).symm.trans hk⟩

lemma sameValue_recomposed (o : AddressObject) : o.SameValue (o.recomposed pl) := by
  have hname : ∀ name, o.SameValue (o.withName name) := by
    intro name
    cases o with
    | ipv4 a => exact ⟨rfl, rfl⟩
    | ipv6 a => exact ⟨rfl, rfl, rfl, rfl⟩
    | unix a => exact rfl
  unfold AddressObject.recomposed
  split
  · exact hname _
  · exact .refl o

lemma endpoint_copied (hw : w.Faithful pl) {v v' : AddressValue} (h : v.copied pl = some v')
    {k : κ} (hk : v.endpoint pl w = some k) : v'.endpoint pl w = some k := by
  cases v with
  | blank d => cases hk
  | set o =>
    rw [AddressValue.copied] at h
    split at h
    · cases h
      exact endpoint_of_sameValue hw (sameValue_recomposed o) hk
    · cases h

namespace AddressValues

variable {t t' : AddressValues} {f : Nat → Option κ} {x : Nat} {v : AddressValue} {e : Option κ}

variable (pl w) in
/-- A variable that has an origin names it. -/
def Names (t : AddressValues) (f : Nat → Option κ) : Prop :=
  ∀ x k, f x = some k → ∃ v, t.value x = some v ∧ v.endpoint pl w = some k

lemma Names.update (h : t.Names pl w f) (hold : ∀ y, y ≠ x → t'.value y = t.value y)
    (hnew : ∀ k, e = some k → ∃ v, t'.value x = some v ∧ v.endpoint pl w = some k) :
    t'.Names pl w (Function.update f x e) := by
  intro y k hk
  by_cases hy : y = x
  · subst hy
    rw [Function.update_self] at hk
    exact hnew k hk
  · rw [Function.update_of_ne hy] at hk
    rw [hold y hy]
    exact h y k hk

lemma Names.make (h : t.Names pl w f) (hv : ∀ k, e = some k → v.endpoint pl w = some k) :
    (t.make v).Names pl w (Function.update f t.next e) :=
  h.update (fun _ hy => Function.update_of_ne hy _ _)
    fun k hk => ⟨v, Function.update_self _ _ _, hv k hk⟩

lemma Names.assign (h : t.Names pl w f) (hv : ∀ k, e = some k → v.endpoint pl w = some k) :
    (t.assign x v).Names pl w (Function.update f x e) :=
  h.update (fun _ hy => Function.update_of_ne hy _ _)
    fun k hk => ⟨v, Function.update_self _ _ _, hv k hk⟩

lemma Names.skip (h : t.Names pl w f) : t.skip.Names pl w (Function.update f t.next none) :=
  h.update (fun _ _ => rfl) fun k hk => by cases hk

lemma Names.drop (h : t.Names pl w f) : (t.drop x).Names pl w (Function.update f x none) :=
  h.update (fun _ hy => Function.update_of_ne hy _ _) fun k hk => by cases hk

/-- The value that a variable with an origin has names it. -/
lemma Names.endpoint (h : t.Names pl w f) (hv : t.value x = some v) {k : κ}
    (hk : f x = some k) : v.endpoint pl w = some k := by
  obtain ⟨v', hv', he⟩ := h x k hk
  rw [hv] at hv'
  cases hv'
  exact he

/-- Every operation keeps the origins true. -/
lemma Names.step (hw : w.Faithful pl) (h : t.Names pl w f) {op : ValueOp}
    (hstep : ValueOp.step pl t op = some t') : t'.Names pl w (op.inherits t.next f) := by
  have hnone : ∀ (v : AddressValue) k, (none : Option κ) = some k → v.endpoint pl w = some k :=
    fun _ _ hk => by cases hk
  cases op with
  | default =>
    cases hstep
    exact h.make (hnone _)
  | ofString addrstr d =>
    simp only [ValueOp.step] at hstep
    split at hstep
    · cases hstep
      exact h.make (hnone _)
    · cases hstep
      exact h.skip
  | ofStorage st len =>
    simp only [ValueOp.step] at hstep
    split at hstep
    · cases hstep
      exact h.make (hnone _)
    · cases hstep
      exact h.skip
    · cases hstep
  | ofBase o =>
    obtain ⟨v, -, rfl⟩ := Option.map_eq_some_iff.mp hstep
    exact h.make (hnone _)
  | copy y =>
    obtain ⟨v, hv, hstep⟩ := Option.bind_eq_some_iff.mp hstep
    obtain ⟨v', hv', rfl⟩ := Option.map_eq_some_iff.mp hstep
    exact h.make fun k hk => endpoint_copied hw hv' (h.endpoint hv hk)
  | move y =>
    obtain ⟨v, hv, rfl⟩ := Option.map_eq_some_iff.mp hstep
    exact (h.make fun k hk => h.endpoint hv hk).assign (hnone _)
  | copyAssign x y =>
    simp only [ValueOp.step] at hstep
    split at hstep
    · cases hstep
    · next hv =>
      obtain ⟨v', hv', rfl⟩ := Option.map_eq_some_iff.mp hstep
      exact h.assign fun k hk => endpoint_copied hw hv' (h.endpoint hv hk)
    · cases hstep
  | moveAssign x y =>
    simp only [ValueOp.step] at hstep
    split at hstep
    · next hv =>
      cases hstep
      exact (h.assign fun k hk => h.endpoint hv hk).assign (hnone _)
    · cases hstep
  | assign x st len =>
    simp only [ValueOp.step] at hstep
    split at hstep
    · cases hstep
      exact h.assign (hnone _)
    · cases hstep
      exact h.assign (hnone _)
    · cases hstep
  | destroy x =>
    obtain ⟨v, -, rfl⟩ := Option.map_eq_some_iff.mp hstep
    exact h.drop

end AddressValues

/-! ### Steps of the network -/

namespace Network

variable (pl w) in
/-- What `names` asks of the variables of a program whose pointers are sound. -/
def Traced (s : Addresses) (f : Nat → Option κ) : Prop :=
  Owning pl s ∧ s.values.Names pl w f

section Traced

variable {s t : Addresses} {f : Nat → Option κ}

lemma Traced.undisturbed (h : Traced pl w s f) (hu : Addresses.Undisturbed pl s t) :
    Traced pl w t f := by
  refine ⟨hu.1, fun x k hk => ?_⟩
  obtain ⟨v, hv, he⟩ := h.2 x k hk
  exact ⟨v, hu.2 x v hv, he⟩

lemma Traced.address (hw : w.Faithful pl) (hn : pl.NtopTotal) (hs : pl.LibraryWorks)
    (h : Traced pl w s f) {op : AddressOp} (hg : KeepsObject pl s op)
    (hstep : op.step pl s = some t) :
    Traced pl w t (op.meaning.inherits s.vars.next f) := by
  have hrefines := Addresses.refines_values hn hs
  refine ⟨hrefines.keeps s op t h.1 hg hstep, ?_⟩
  exact h.2.step hw ((hrefines.matches_iff s op t.values h.1).mpr ⟨hg, t, hstep, rfl⟩)

lemma Traced.replaced (h : Traced pl w s f) {x : Nat} {o : AddressObject}
    (hr : Addresses.Replaced pl x o s t) {e : Option κ} (he : o.endpoint pl w = e) :
    Traced pl w t (Function.update f x e) := by
  refine ⟨hr.owning h.1, h.2.update (fun y hy => hr.valueOf_ne h.1 hy) fun k hk => ?_⟩
  exact ⟨.set o, hr.holds.valueOf, he.trans hk⟩

end Traced

variable [DecidableEq κ] {n m : Network κ} {x : Nat} {k : κ} {f : Nat → Option κ}

/-- Where the address variables come from after a step. `receive` says who has sent the letter,
and `localAddress` what others have to send to. -/
def origins (n : Network κ) (f : Nat → Option κ) : DatagramOp κ → Nat → Option κ
  | .address op => op.meaning.inherits n.program.addr.vars.next f
  | .localAddress x (.ok _) =>
    Function.update f n.program.addr.vars.next ((n.program.descriptor x).bind n.home)
  | .receive x from_ _ (.ok _) =>
    Function.update f from_
      ((n.program.descriptor x).bind fun i => (n.inbox i).head?.map Letter.source)
  | _ => f

variable (pl) in
/-- No object is left without a successor. -/
def Careful (n : Network κ) : DatagramOp κ → Prop
  | .address op => KeepsObject pl n.program.addr op
  | _ => True

variable (pl w) in
/-- A network, and the origins of the variables of its program. -/
def tracedStep (p : Network κ × (Nat → Option κ)) (op : DatagramOp κ) :
    Option (Network κ × (Nat → Option κ)) :=
  (p.1.step pl w op).map fun m => (m, p.1.origins p.2 op)

omit [DecidableEq κ] in
lemma Traced.resume (h : Traced pl w n.program.addr f) {α : Type} {p : SockProg α} {s : World}
    (hp : Prog.wp p (fun _ t => Addresses.Undisturbed pl n.program.addr t.addr)
      (fun _ t => Addresses.Undisturbed pl n.program.addr t.addr) (fun _ => True)
      (SocketOp.start n.program))
    (hr : (p (SocketOp.start n.program)).resume = some s) : Traced pl w s.addr f := by
  have hu : Addresses.Undisturbed pl n.program.addr s.addr :=
    Prog.resume_of_wp (P := fun t => Addresses.Undisturbed pl n.program.addr t.addr)
      (F := fun _ => True) hp hr
  exact h.undisturbed hu

omit [DecidableEq κ] in
lemma undisturbed_of_member (hs : pl.LibraryWorks) (h : Traced pl w n.program.addr f)
    (x : Nat) (mem : Member) (hfills : mem.fills = none) :
    Prog.wp (mem.exec pl x) (fun _ t => Addresses.Undisturbed pl n.program.addr t.addr)
      (fun _ t => Addresses.Undisturbed pl n.program.addr t.addr) (fun _ => True)
      (SocketOp.start n.program) :=
  World.member_undisturbed hs (s := SocketOp.start n.program) h.1 x mem hfills

lemma traced_of_bind (hs : pl.LibraryWorks) (h : Traced pl w n.program.addr f) {fr : Frame}
    {address : Nat} {answer : Except Int Unit}
    (hm : n.bind pl w x fr address answer = some m) : Traced pl w m.program.addr f := by
  obtain ⟨s, hs', hm⟩ := Option.bind_eq_some_iff.mp hm
  have ht := h.resume (undisturbed_of_member hs h x (.bindAddress fr address answer) rfl) hs'
  split at hm
  · split at hm
    · obtain ⟨i, -, hm⟩ := Option.bind_eq_some_iff.mp hm
      unfold Network.settle at hm
      split at hm
      · cases hm
        exact ht
      · cases hm
    · cases hm
      exact ht
  · cases hm
    exact ht

/-- A new variable names the endpoint that the kernel reports. -/
lemma traced_of_localAddress (hw : w.Faithful pl) (hn : pl.NtopTotal) (hs : pl.LibraryWorks)
    (h : Traced pl w n.program.addr f) {answer : NameAnswer}
    (hm : n.localAddress pl w x answer = some m) :
    Traced pl w m.program.addr (n.origins f (.localAddress x answer)) := by
  cases answer with
  | error e =>
    obtain ⟨s, hs', hm⟩ := Option.bind_eq_some_iff.mp hm
    cases hm
    have hu := undisturbed_of_member hs h x (.localAddress (.error e)) rfl
    exact h.resume (World.wp_discard.mp hu) hs'
  | ok r =>
    obtain ⟨st, len⟩ := r
    obtain ⟨i, hi, hm⟩ := Option.bind_eq_some_iff.mp hm
    obtain ⟨k, hk, hm⟩ := Option.bind_eq_some_iff.mp hm
    split at hm
    · next hr =>
      obtain ⟨s, hs', hm⟩ := Option.bind_eq_some_iff.mp hm
      cases hm
      obtain ⟨v, hx, -⟩ := Option.bind_eq_some_iff.mp hi
      have hx' : (SocketOp.start n.program).socks.get x = some v := hx
      obtain ⟨o, hdec, he⟩ := endpoint_of_reported hw hn hr
      have hmade : ∀ t : Addresses, Owning pl t →
          ValueOp.step pl n.program.addr.values (.ofStorage st len) = some t.values →
          Traced pl w t (Function.update f n.program.addr.vars.next (some k)) := by
        intro t ht hstep
        simp only [ValueOp.step, hdec] at hstep
        refine ⟨ht, ?_⟩
        rw [← Option.some.inj hstep]
        exact h.2.make fun k' hk' => he.trans hk'
      rw [origins, hi, Option.bind_some, hk]
      refine Prog.resume_of_wp (P := fun t => Traced pl w t.addr
        (Function.update f n.program.addr.vars.next (some k))) (F := fun _ => True) ?_ hs'
      rw [World.localAddress, Prog.wp_bind, World.wp_request hx']
      refine ⟨fun sa hsa => ?_, fun _ hno => by cases hno⟩
      cases hsa
      rw [World.wp_addresses]
      apply Prog.wp_mono (Prog.wp_and (ofStorage_owning h.1 st len)
        (Addresses.ofStorage_yields hs h.1))
      · intro _ t ht
        exact hmade t ht.1 ht.2
      · intro _ t ht
        exact hmade t ht.1 ht.2
      · intro _ _
        trivial
    · cases hm

lemma traced_of_send (hs : pl.LibraryWorks) (h : Traced pl w n.program.addr f)
    {data : List UInt8} {fr : Frame} {to_ : Nat} {answer : Except Int Unit} {delivered : Bool}
    (hm : n.send pl w x data fr to_ answer delivered = some m) :
    Traced pl w m.program.addr f := by
  obtain ⟨s, hs', hm⟩ := Option.bind_eq_some_iff.mp hm
  have ht := h.resume (undisturbed_of_member hs h x (.sendAddress data fr to_ 0 _) rfl) hs'
  split at hm
  · obtain ⟨i, -, hm⟩ := Option.bind_eq_some_iff.mp hm
    obtain ⟨source, -, hm⟩ := Option.bind_eq_some_iff.mp hm
    obtain ⟨k, -, hm⟩ := Option.bind_eq_some_iff.mp hm
    cases hm
    cases delivered with
    | false => exact ht
    | true =>
      simp only [if_true]
      unfold post
      split
      · exact ht
      · exact ht
  · cases hm
    exact ht

lemma traced_of_receive (hw : w.Faithful pl) (hn : pl.NtopTotal) (hs : pl.LibraryWorks)
    (h : Traced pl w n.program.addr f) {from_ bufSize : Nat} {answer : NameAnswer}
    (hm : n.receive pl w x from_ bufSize answer = some m) :
    Traced pl w m.program.addr (n.origins f (.receive x from_ bufSize answer)) := by
  cases answer with
  | error e =>
    obtain ⟨s, hs', hm⟩ := Option.bind_eq_some_iff.mp hm
    cases hm
    cases hx : n.program.socks.get x with
    | none =>
      have hx' : (SocketOp.start n.program).socks.get x = none := hx
      have hraw : World.receiveRaw pl x bufSize 0 (.error e) (SocketOp.start n.program) =
          .fault .danglingPointer := World.request_dead hx' _ _
      have hfault : World.receiveFrom pl x from_ bufSize 0 (.error e)
          (SocketOp.start n.program) = .fault .danglingPointer := Prog.bind_of_fault hraw
      rw [hfault] at hs'
      cases hs'
    | some v =>
      have hx' : (SocketOp.start n.program).socks.get x = some v := hx
      have hthrow : World.receiveFrom pl x from_ bufSize 0 (.error e)
          (SocketOp.start n.program) = _ := Prog.bind_of_throw (receiveRaw_error hx' bufSize 0 e)
      rw [hthrow] at hs'
      cases hs'
      exact h
  | ok r =>
    obtain ⟨st, len⟩ := r
    obtain ⟨i, hi, hm⟩ := Option.bind_eq_some_iff.mp hm
    obtain ⟨a, hfrom, hm⟩ := Option.bind_eq_some_iff.mp hm
    obtain ⟨v, hx, -⟩ := Option.bind_eq_some_iff.mp hi
    cases hbox : n.inbox i with
    | nil =>
      rw [hbox] at hm
      cases hm
    | cons letter rest =>
      simp only [hbox] at hm
      split at hm
      · next hr =>
        obtain ⟨t, o, ht, hreplaced, he⟩ := receiveFrom_names hw hn hs hr hx hfrom
          (show (letter.data.take bufSize).length ≤ bufSize from List.length_take_le _ _)
        rw [ht] at hm
        cases hm
        rw [origins, hi, Option.bind_some, hbox]
        exact h.replaced hreplaced he
      · cases hm

lemma fills_of_not_carriesMail {op : SocketOp}
    (h : (ProgramOp.library op).carriesMail = false) : op.fills = none := by
  cases op with
  | member x mem =>
    cases mem with
    | receiveFrom from_ bufSize flags answer => cases h
    | _ => rfl
  | _ => rfl

lemma traced_of_step (hw : w.Faithful pl) (hn : pl.NtopTotal) (hs : pl.LibraryWorks)
    (h : Traced pl w n.program.addr f) {op : DatagramOp κ} (hg : Careful pl n op)
    (hm : n.step pl w op = some m) : Traced pl w m.program.addr (n.origins f op) := by
  cases op with
  | program op =>
    rw [step] at hm
    split at hm
    · cases hm
    · next hmail =>
      obtain ⟨s, hs', rfl⟩ := Option.map_eq_some_iff.mp hm
      cases op with
      | library op =>
        have hfills := fills_of_not_carriesMail (Bool.eq_false_of_not_eq_true hmail)
        exact h.undisturbed (step_undisturbed hs h.1 hs' hfills)
      | close c =>
        obtain ⟨kernel, -, rfl⟩ := Option.map_eq_some_iff.mp hs'
        exact h
  | address op =>
    obtain ⟨a, ha, rfl⟩ := Option.map_eq_some_iff.mp hm
    exact h.address hw hn hs hg ha
  | assign i k =>
    have hm' : n.settle i k = some m := hm
    unfold Network.settle at hm'
    split at hm'
    · cases hm'
      exact h
    · cases hm'
  | bind x fr address answer => exact traced_of_bind hs h hm
  | localAddress x answer => exact traced_of_localAddress hw hn hs h hm
  | send x data fr to_ answer delivered => exact traced_of_send hs h hm
  | receive x from_ bufSize answer => exact traced_of_receive hw hn hs h hm

/-! ### Letters to a variable -/

variable (pl w) in
/-- What a socket with an endpoint of its own sends to a variable that has an origin is sent to
this origin. -/
def GoesBack (n : Network κ) (f : Nat → Option κ) : Prop :=
  ∀ y k x source, f y = some k → (n.program.descriptor x).bind n.home = some source →
    ∀ data fr delivered, data ≠ [] → pl.windows = false ∨ data.length < 2 ^ 31 → ∃ s,
      let posted : Network κ :=
        { n with program := s, sent := n.sent ++ [⟨source, some k, data⟩] }
      n.send pl w x data fr y (.ok ()) delivered =
        some (if delivered then posted.post ⟨source, data⟩ k else posted)

/-- One system call sends all of the data. -/
lemma sendTo_once {s : World} {v : Socket} {data : List UInt8} {st : SockaddrStorage}
    {len : Nat} (hx : s.socks.get x = some v) (hdata : data ≠ [])
    (hfit : pl.windows = false ∨ data.length < 2 ^ 31) :
    World.sendTo pl x data st len 0 [.ok data.length] s =
      .ok () (s.called (.sendto v.m_sockFD data (0 ||| pl.MSG_NOSIGNAL) st len)) := by
  have hpos : 0 < data.length := List.length_pos_of_ne_nil hdata
  rw [World.sendTo, sendLoop_ok hx hpos, sendLoop_done (by omega), nextPiece_eq_drop hfit]
  rfl

lemma goesBack_of_traced (hw : w.Faithful pl) (h : Traced pl w n.program.addr f) :
    n.GoesBack pl w f := by
  intro y k x source hk hhome data fr delivered hdata hfit
  obtain ⟨v, hv, he⟩ := h.2 y k hk
  cases v with
  | blank d => cases he
  | set o =>
    obtain ⟨i, hi, hsource⟩ := Option.bind_eq_some_iff.mp hhome
    obtain ⟨v, hx, -⟩ := Option.bind_eq_some_iff.mp hi
    obtain ⟨st, hst, hread⟩ := exists_read hw he fr
    have hholds : n.program.addr.Holds pl y o := by
      obtain ⟨a, -, -, -, ⟨-, hblank⟩ | ⟨o', hold, hset⟩⟩ := Addresses.of_valueOf h.1 hv
      · cases hblank
      · cases hset
        exact hold
    have hsend := World.sendAddress_eq (s := SocketOp.start n.program) (x := x) hholds hst
      data 0 [.ok data.length]
    rw [sendTo_once (by exact hx) hdata hfit] at hsend
    have hall : pl.callLength data.length = data.length :=
      (pl.callLength_eq_self_iff data.length).mpr hfit
    have hnamed : named pl w n.program.addr y = some k := (named_eq w hv).trans he
    refine ⟨(SocketOp.start n.program).called
      (.sendto v.m_sockFD data (0 ||| pl.MSG_NOSIGNAL) st o.size), ?_⟩
    rw [Network.send, hall]
    change (World.sendAddress pl x data fr y 0 [.ok data.length] _).resume.bind _ = _
    rw [hsend]
    simp only [Outcome.resume, World.called, hi, hsource, hread, hnamed, Option.bind_eq_bind,
      Option.bind_some]

end Network

/-- Wherever an address that `receive` has filled is copied and moved to, what is sent to it
goes to the socket that the letter came from, and what is sent to a copy of `localAddress` goes
to this socket. -/
theorem replies_go_back {κ : Type} [DecidableEq κ] (w : Wire κ) (hw : w.Faithful pl)
    (hn : pl.NtopTotal) (hs : pl.LibraryWorks) (autoInitialize : Bool)
    (files : List (List UInt8)) (ops : List (DatagramOp κ))
    (hg : Guarded (Network.tracedStep pl w) (fun p op => Network.Careful pl p.1 op)
      (Network.initial autoInitialize files, fun _ => none) ops) :
    Along (Network.tracedStep pl w) (fun p => p.1.GoesBack pl w p.2)
      (Network.initial autoInitialize files, fun _ => none) ops := by
  have hstep : ∀ p op p', Network.Traced pl w p.1.program.addr p.2 → Network.Careful pl p.1 op →
      Network.tracedStep pl w p op = some p' → Network.Traced pl w p'.1.program.addr p'.2 := by
    intro p op p' h hcareful hp
    obtain ⟨m, hm, rfl⟩ := Option.map_eq_some_iff.mp hp
    exact Network.traced_of_step hw hn hs h hcareful hm
  have hstart : Network.Traced pl w
      (Network.initial autoInitialize files : Network κ).program.addr fun _ => none :=
    ⟨Owning.of_vars_empty _ _, fun _ _ hk => by cases hk⟩
  apply Along.mono (P := fun p => Network.Traced pl w p.1.program.addr p.2)
  · intro p h
    exact Network.goesBack_of_traced hw h
  · exact along_of_guarded hstep hstart hg

/-- The address of the letter is copied and destroyed, and the copy is sent a byte. -/
def answerByMail : List (DatagramOp (List UInt8)) :=
  let fr : Frame := ⟨fun _ => 7, fun _ => 9⟩
  threeBytesByMail ++
    [.address (.copy fr 1), .address (.destroy 1), .send 1 [4] fr 3 (.ok ()) true]

theorem replies_go_back_linux :
    Along (Network.tracedStep linuxHost pathWire) (fun p => p.1.GoesBack linuxHost pathWire p.2)
      (Network.initial true [], fun _ => none) answerByMail := by
  have hcareful : ∀ p, ∀ op ∈ answerByMail, Network.Careful linuxHost p op := by
    intro p
    simp only [answerByMail, threeBytesByMail, List.cons_append, List.nil_append,
      List.forall_mem_cons]
    exact ⟨trivial, trivial, trivial, trivial, trivial, trivial, trivial, trivial, trivial,
      trivial, trivial, List.forall_mem_nil _⟩
  exact replies_go_back pathWire (fun _ _ _ h => kernelPath_of_sameBytes h)
    (ntopTotal_numericHost false false true) (libraryWorks_numericHost false false true) true []
    answerByMail (guarded_of_forall fun p => hcareful p.1)

example :
    (run (Network.tracedStep linuxHost pathWire) (Network.initial true [], fun _ => none)
      answerByMail).map (fun p => (p.2 3, p.1.posted 0)) =
    some (some [47, 97], [⟨[47, 98], [4]⟩]) := by
  decide +kernel

end SockLib
