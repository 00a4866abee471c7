import SockLib.Proofs.EchoCalls

/-!
# The echo server

The vector changes while a range-based `for` goes over it. The loop visits a destroyed socket as
soon as a client has left that is not the last one.
-/

namespace SockLib

variable {pl : Platform}

/-! ### One client -/

namespace EchoServer

variable {s t : EchoServer} {a : EchoAnswers} {l : Nat} {α : Type}

section Rules

variable {Q : α → EchoServer → Prop} {E : Exn → EchoServer → Prop} {F : Fault → Prop}

lemma wp_sockets {m : SockProg α} :
    Prog.wp (sockets m) Q E F s ↔
      Prog.wp m (fun b w => Q b { s with program := w }) (fun e w => E e { s with program := w }) F
        (SocketOp.start s.program) := by
  rw [sockets, Prog.wp_zoom, Prog.wp_bind, Prog.wp_modify]

lemma wp_caught {m : EchoProg Unit} {Q : Unit → EchoServer → Prop} :
    Prog.wp (caught m) Q E F s ↔ Prog.wp m Q (fun _ => Q ()) F s := by
  rw [caught, Prog.wp_tryCatch]
  rfl

end Rules

/-- The clients are different sockets that own their descriptors. -/
structure Keeps (s : EchoServer) : Prop where
  linear : Linear s.program
  nodup : s.clientList.Nodup
  owners : ∀ x ∈ s.clientList, ∃ v, s.program.socks.get x = some v ∧ v.m_validFD = true

lemma Keeps.unmoved (h : s.Keeps) {w : World} (hw : (SocketOp.start s.program).Unmoved w) :
    Keeps { s with program := w } := by
  refine ⟨hw.linear, h.nodup, fun x hx => ?_⟩
  change ∃ v, w.socks.get x = some v ∧ v.m_validFD = true
  rw [hw.socks]
  exact h.owners x hx

end EchoServer

variable (pl) in
/-- The end of the connection is seen at a client: it is readable, its address can be told, and
nothing is received. -/
def EchoAnswers.Leaves (a : EchoAnswers) (l : Nat) : Prop :=
  (∃ r, a.ready l = .ok r ∧ r &&& pl.POLLIN = pl.POLLIN) ∧ World.Tells pl (a.name l) ∧
    a.payload l = .ok []

variable (pl) in
/-- A client is readable, its address can be told, and these bytes are received from it. -/
def EchoAnswers.Says (a : EchoAnswers) (l : Nat) (message : List UInt8) : Prop :=
  (∃ r, a.ready l = .ok r ∧ r &&& pl.POLLIN = pl.POLLIN) ∧ World.Tells pl (a.name l) ∧
    a.payload l = .ok message

variable (pl) in
/-- Answers that the kernel can give: the address of a peer fits the storage, every system call of
`send` fails or accepts at least one of the bytes offered, and the address of a client's own end
is such that its destructor completes. -/
structure EchoAnswers.Fits (a : EchoAnswers) (s : EchoServer) : Prop where
  name : ∀ l ∈ s.clientList, ¬World.Overlong (a.name l)
  sent : ∀ l ∈ s.clientList, ∀ message, a.payload l = .ok message →
    ∀ x ∈ s.clientList, x ≠ l → World.Suffice pl message.length (a.sent l x)
  leaving : ∀ l ∈ s.clientList, ∀ z ∈ s.clientList, ∀ v, s.program.socks.get l = some v →
    Destructible pl s.program v (a.localName z)

variable (pl) in
/-- With these answers nothing but a fault of this kind happens at the places of clients. -/
structure EchoAnswers.Handled (a : EchoAnswers) (F : Fault → Prop) (s : EchoServer) : Prop where
  name : ∀ l ∈ s.clientList, ∀ k ≠ .danglingPointer, World.Overlong (a.name l) → F k
  sent : ∀ l ∈ s.clientList, ∀ payload, a.payload l = .ok payload → ∀ x ∈ s.clientList, x ≠ l →
    ∀ (u : World) v, u.socks.get x = some v →
      Prog.wp (World.send pl x (World.receivedVector 0x10000 payload) 0 (a.sent l x))
        (fun _ t => ∃ cs, t = u.recorded cs) (fun _ t => ∃ cs, t = u.recorded cs) F u
  leaving : ∀ l ∈ s.clientList, ∀ z ∈ s.clientList, ∀ (t : World) v,
    s.program.socks.get l = some v → t.socks.get z = some v → v.m_validFD = true →
      Prog.wp (World.destroy pl z (a.localName z)) (fun _ _ => True) (fun _ _ => False) F t

namespace EchoAnswers

variable {a : EchoAnswers} {s t : EchoServer} {F G : Fault → Prop}

lemma Handled.mono (h : a.Handled pl F s) (hF : ∀ k, F k → G k) : a.Handled pl G s := by
  constructor
  · intro l hl k hk hlong
    exact hF k (h.name l hl k hk hlong)
  · intro l hl payload hp x hx hxl u v hv
    exact Prog.wp_mono (h.sent l hl payload hp x hx hxl u v hv) (fun _ _ h => h)
      (fun _ _ h => h) hF
  · intro l hl z hz t v hv hz' hvalid
    exact Prog.wp_mono (h.leaving l hl z hz t v hv hz' hvalid) (fun _ _ h => h)
      (fun _ _ h => h) hF

/-- What is known of the clients is known of those that are left. -/
lemma Handled.subset (h : a.Handled pl F s) (hsub : ∀ x ∈ t.clientList, x ∈ s.clientList)
    (helements : ∀ x ∈ t.clientList, ∃ y ∈ s.clientList,
      t.program.socks.get x = s.program.socks.get y) : a.Handled pl F t := by
  constructor
  · intro l hl
    exact h.name l (hsub l hl)
  · intro l hl payload hp x hx
    exact h.sent l (hsub l hl) payload hp x (hsub x hx)
  · intro l hl z hz u v hv
    obtain ⟨y, hy, heq⟩ := helements l hl
    exact h.leaving y hy z (hsub z hz) u v (heq ▸ hv)

variable (pl a s) in
/-- Whatever is answered, clients use only what is there. -/
lemma handled_sound : a.Handled pl (· ≠ .danglingPointer) s := by
  constructor
  · intro l _ k hk _
    exact hk
  · intro l _ payload _ x _ _ u v hv
    exact World.sendLoop_recorded hv _ _ 0 (a.sent l x)
  · intro l _ z _ t v _ hz hvalid
    exact World.destroy_sound hz hvalid (a.localName z)

/-- With answers that the kernel can give there are no faults. -/
lemma Fits.handled (hw : pl.LibraryWorks) (h : a.Fits pl s) :
    a.Handled pl (fun _ => False) s := by
  constructor
  · intro l hl k _ hlong
    exact h.name l hl hlong
  · intro l hl payload hp x hx hxl u v hv
    apply World.sendLoop_covered hv
    rw [World.length_receivedVector]
    exact h.sent l hl payload hp x hx hxl
  · intro l hl z hz t v hv hz' hvalid
    exact World.destroy_returns hz' hvalid (World.destructible_of hw (h.leaving l hl z hz v hv) t)

end EchoAnswers

namespace EchoServer

variable {s t : EchoServer} {a : EchoAnswers} {l : Nat} {F : Fault → Prop}

/-- What is left of the vector after a client has been served. Nothing else changes. -/
structure Served (pl : Platform) (a : EchoAnswers) (l : Nat) (s t : EchoServer) : Prop where
  keeps : t.Keeps
  left : a.Leaves pl l → t.clientList = s.clientList.dropLast
  stays : ¬a.Leaves pl l → t.clientList = s.clientList
  elements : ∀ x ∈ t.clientList, ∃ y ∈ s.clientList,
    t.program.socks.get x = s.program.socks.get y
  others : ∀ z, z ∉ s.clientList → t.program.socks.get z = s.program.socks.get z
  empty : ∀ z ∈ s.clientList, z ∉ t.clientList → t.program.socks.get z = none

lemma Served.of_unmoved (h : s.Keeps) {w : World} (hw : (SocketOp.start s.program).Unmoved w)
    (hl : ¬a.Leaves pl l) : Served pl a l s { s with program := w } := by
  have hsame : ∀ z, w.socks.get z = s.program.socks.get z := by
    intro z
    rw [hw.socks]
    rfl
  refine ⟨h.unmoved hw, fun hleaves => absurd hleaves hl, fun _ => rfl, ?_, ?_, ?_⟩
  · intro x hx
    exact ⟨x, hx, hsame x⟩
  · intro z _
    exact hsame z
  · intro z hz hno
    exact absurd hz hno

lemma Served.subset (h : Served pl a l s t) : ∀ x ∈ t.clientList, x ∈ s.clientList := by
  intro x hx
  by_cases hl : a.Leaves pl l
  · rw [h.left hl] at hx
    exact List.mem_of_mem_dropLast hx
  · exact h.stays hl ▸ hx

lemma Served.handled (h : Served pl a l s t) (ha : a.Handled pl F s) : a.Handled pl F t :=
  ha.subset h.subset h.elements

/-- No two clients have the same number. -/
lemma Keeps.differ (h : s.Keeps) {x : Nat} {v w : Socket} (hl : l ∈ s.clientList)
    (hx : x ∈ s.clientList) (hv : s.program.socks.get x = some v)
    (hw : s.program.socks.get l = some w) (hfd : v.m_sockFD = w.m_sockFD) : x = l := by
  obtain ⟨v', hv', hvalid⟩ := h.owners x hx
  obtain ⟨w', hw', hwalid⟩ := h.owners l hl
  obtain rfl : v = v' := Option.some.inj (hv.symm.trans hv')
  obtain rfl : w = w' := Option.some.inj (hw.symm.trans hw')
  exact h.linear.sole x l _ ⟨v, hv, hvalid, hfd⟩ ⟨w, hw, hwalid, rfl⟩

lemma erase_served (h : s.Keeps) (ha : a.Handled pl F s) {w : World}
    (hw : (SocketOp.start s.program).Unmoved w) (hl : l ∈ s.clientList)
    (hleaves : a.Leaves pl l) :
    Prog.wp (do
        let ys ← sockets (World.eraseRemove pl l s.clientList a.localName)
        Prog.modify fun s => { s with clientList := ys })
      (fun _ => Served pl a l s) (fun _ => Served pl a l s) F { s with program := w } := by
  have howners : ∀ x ∈ s.clientList,
      ∃ v, (SocketOp.start w).socks.get x = some v ∧ v.m_validFD = true := (h.unmoved hw).owners
  have hsame : ∀ z, (SocketOp.start w).socks.get z = s.program.socks.get z := by
    intro z
    change w.socks.get z = _
    rw [hw.socks]
    rfl
  rw [Prog.wp_bind, wp_sockets]
  apply Prog.wp_mono (World.erase_spec (World.linear_start hw.linear) rfl h.nodup howners hl
    a.localName fun y hy z hz t v hv => ha.leaving y hy z hz t v ((hsame y).symm.trans hv))
  · intro ys t he
    have helements : ∀ x ∈ ys, ∃ y ∈ s.clientList, t.socks.get x = s.program.socks.get y := by
      intro x hx
      obtain ⟨y, hy, heq⟩ := he.elements x hx
      exact ⟨y, hy, heq.trans (hsame y)⟩
    rw [Prog.wp_modify]
    refine ⟨⟨he.linear, ?_, ?_⟩, fun _ => he.dropLast, fun hno => absurd hleaves hno, helements,
      fun z hz => (he.others z hz).trans (hsame z), he.empty⟩
    · change ys.Nodup
      rw [he.dropLast]
      exact h.nodup.sublist (List.dropLast_sublist _)
    · intro x hx
      obtain ⟨y, hy, heq⟩ := helements x hx
      obtain ⟨v, hv, hvalid⟩ := h.owners y hy
      exact ⟨v, heq.trans hv, hvalid⟩
  · intro _ _ hno
    exact hno.elim
  · intro _ hf
    exact hf

lemma send_served (h : s.Keeps) (ha : a.Handled pl F s) {w : World}
    (hw : (SocketOp.start s.program).Unmoved w) (hl : l ∈ s.clientList) {payload : List UInt8}
    (hp : a.payload l = .ok payload) (hno : ¬a.Leaves pl l) :
    Prog.wp (sockets (World.sendOn pl l (World.receivedVector 0x10000 payload) (a.sent l)
        s.clientList))
      (fun _ => Served pl a l s) (fun _ => Served pl a l s) F { s with program := w } := by
  have hlive : ∀ x ∈ s.clientList, ∃ v, (SocketOp.start w).socks.get x = some v := by
    intro x hx
    obtain ⟨v, hv, -⟩ := (h.unmoved hw).owners x hx
    exact ⟨v, hv⟩
  have hsent : ∀ cs, Served pl a l s { s with program := (SocketOp.start w).recorded cs } := by
    intro cs
    exact .of_unmoved h (hw.next (.of_recorded (World.linear_start hw.linear) cs)) hno
  rw [wp_sockets]
  apply Prog.wp_mono (World.sendOn_recorded (s := SocketOp.start w) (hlive l hl) _ (a.sent l)
    hlive (ha.sent l hl payload hp))
  · rintro _ _ ⟨cs, rfl⟩
    exact hsent cs
  · rintro _ _ ⟨cs, rfl⟩
    exact hsent cs
  · intro _ hf
    exact hf

/-- The client in a place is asked for its bytes; then they are dealt with. -/
lemma serve_rule (hw : pl.LibraryWorks) (h : s.Keeps) (hl : l ∈ s.clientList)
    {Q : EchoServer → Prop}
    (hquiet : ∀ w, (SocketOp.start s.program).Unmoved w → (∀ message, ¬a.Says pl l message) →
      Q { s with program := w })
    (hheard : ∀ payload w, (SocketOp.start s.program).Unmoved w → a.Says pl l payload →
      Prog.wp (if (World.receivedVector 0x10000 payload).isEmpty then do
          let ys ← sockets (World.eraseRemove pl l s.clientList a.localName)
          Prog.modify fun s => { s with clientList := ys }
        else sockets (World.sendOn pl l (World.receivedVector 0x10000 payload) (a.sent l)
          s.clientList))
        (fun _ => Q) (fun _ => Q) F { s with program := w })
    (hfault : ∀ k ≠ .danglingPointer, ¬World.Tells pl (a.name l) → World.Overlong (a.name l) →
      F k) :
    Prog.wp (serve pl a l) (fun _ => Q) (fun _ _ => False) F s := by
  obtain ⟨v, hv, hvalid⟩ := h.owners l hl
  have hstart := World.linear_start h.linear
  have hlive : ∀ {w : World}, (SocketOp.start s.program).Unmoved w →
      (SocketOp.start w).socks.get l = some v := by
    intro w hu
    change w.socks.get l = some v
    rw [hu.socks]
    exact hv
  rw [serve, wp_caught, Prog.wp_bind, wp_sockets]
  apply Prog.wp_mono (World.ready_spec (by exact hv) pl.POLLIN 0 (a.ready l))
  · rintro b w ⟨⟨cs, rfl⟩, r, hr, rfl⟩
    have hready := World.Unmoved.of_recorded hstart cs
    by_cases hbits : r &&& pl.POLLIN = pl.POLLIN
    · simp only [hbits, decide_true, if_true]
      rw [Prog.wp_bind, wp_sockets]
      apply Prog.wp_mono (World.connectedName_spec hw (World.linear_start hready.linear)
        (hlive hready) (a.name l))
      · rintro _ w ⟨hname, htells⟩
        have hnamed := hready.next hname
        have hreceived := fun ds => hnamed.next (.of_recorded (World.linear_start hnamed.linear) ds)
        rw [Prog.wp_bind, wp_sockets]
        apply Prog.wp_mono (World.receive_spec (hlive hnamed) 0x10000 0 (a.payload l))
        · rintro _ w' ⟨⟨ds, rfl⟩, payload, hpayload, rfl⟩
          rw [Prog.wp_bind, Prog.wp_gets]
          exact hheard payload _ (hreceived ds) ⟨⟨r, hr, hbits⟩, htells, hpayload⟩
        · rintro _ w' ⟨⟨ds, rfl⟩, errno, herr⟩
          refine hquiet _ (hreceived ds) ?_
          rintro message ⟨-, -, hpayload⟩
          rw [hpayload] at herr
          cases herr
        · intro _ hf
          exact hf.elim
      · rintro _ w ⟨hname, hno⟩
        exact hquiet _ (hready.next hname) fun message hsaid => hno hsaid.2.1
      · rintro k ⟨hk, hno, hlong⟩
        exact hfault k hk hno hlong
    · simp only [hbits, decide_false, Bool.false_eq_true, if_false]
      refine hquiet _ hready ?_
      rintro message ⟨⟨r', hr', hbits'⟩, -⟩
      rw [hr] at hr'
      cases hr'
      exact hbits hbits'
  · rintro _ w ⟨⟨cs, rfl⟩, errno, herr⟩
    refine hquiet _ (.of_recorded hstart cs) ?_
    rintro message ⟨⟨r, hr, -⟩, -⟩
    rw [hr] at herr
    cases herr
  · intro _ hf
    exact hf.elim

lemma serve_spec (hw : pl.LibraryWorks) (h : s.Keeps) (ha : a.Handled pl F s)
    (hl : l ∈ s.clientList) :
    Prog.wp (serve pl a l) (fun _ => Served pl a l s) (fun _ _ => False) F s := by
  apply serve_rule hw h hl
  · intro w hu hquiet
    exact .of_unmoved h hu (hquiet [])
  · intro payload w hu hheard
    rw [World.isEmpty_receivedVector]
    cases payload with
    | nil => exact erase_served h ha hu hl hheard
    | cons c payload =>
      have hno : ¬a.Leaves pl l := by
        intro hleaves
        have hpayload := hleaves.2.2
        rw [hheard.2.2] at hpayload
        cases hpayload
      exact send_served h ha hu hl hheard.2.2 hno
  · intro k hk _ hlong
    exact ha.name l hl k hk hlong

/-- The bytes of one client have been sent on to the others: what was accepted from each of the
calls for one of them makes up all of the bytes, unless a call has failed. Nothing else has
changed. -/
structure Echoed (pl : Platform) (l : Nat) (message : List UInt8) (f : Nat → Nat → Except Int Nat)
    (s t : EchoServer) : Prop where
  clientList : t.clientList = s.clientList
  socks : t.program.socks = s.program.socks
  calls : ∃ cs thrown, t.program.kernel.calls = cs.reverse ∧
    World.Round pl s.program f message (s.clientList.filter (· ≠ l)) cs thrown ∧
    (thrown = none → ∀ x ∈ s.clientList, x ≠ l → ∃ v n, s.program.socks.get x = some v ∧
      World.sendCalls pl (f x) v message n <:+: cs ∧ (pieces (f x) message n).flatten = message)

/-- What a client says is sent on, when the kernel takes at least one byte in each call. -/
lemma serve_echoes (hw : pl.LibraryWorks) (h : s.Keeps) (hl : l ∈ s.clientList)
    {message : List UInt8} {f : Nat → Nat → Except Int Nat} {m : Nat}
    (hheard : a.Says pl l message) (hne : message ≠ []) (hlen : message.length ≤ 0x10000)
    (hm : message.length ≤ m) (hsent : a.sent l = fun x => (List.range m).map (f x))
    (hf : ∀ x ∈ s.clientList, x ≠ l → Admissible pl (f x) message.length) :
    Prog.wp (serve pl a l) (fun _ => Echoed pl l message f s) (fun _ _ => False) (fun _ => False)
      s := by
  have hsame : ∀ message', a.Says pl l message' → message = message' := by
    intro message' hheard'
    have hmessage := hheard'.2.2
    rw [hheard.2.2] at hmessage
    exact Except.ok.inj hmessage
  apply serve_rule hw h hl
  · intro w hu hquiet
    exact absurd hheard (hquiet message)
  · intro message' w hu hheard'
    obtain rfl := hsame message' hheard'
    have hempty : message.isEmpty = false := by
      cases message with
      | nil => exact absurd rfl hne
      | cons c message => rfl
    have hfit : pl.windows = false ∨ message.length < 2 ^ 31 := .inr (by omega)
    obtain ⟨v, hv, -⟩ := h.owners l hl
    have hothers : ∀ x ∈ s.clientList, ∃ u, s.program.socks.get x = some u ∧
        (u.m_sockFD = v.m_sockFD → x = l) := by
      intro x hx
      obtain ⟨u, hu, -⟩ := h.owners x hx
      exact ⟨u, hu, h.differ hl hx hu hv⟩
    have hstart : (SocketOp.start w).socks = s.program.socks := hu.socks
    obtain ⟨cs, thrown, hround, hcs⟩ := World.sendOn_round pl hm hv hothers hf hfit hstart
    have hechoed : Echoed pl l message f s
        { s with program := (SocketOp.start w).recorded cs } := by
      refine ⟨rfl, (World.socks_recorded _ cs).trans hstart, cs, thrown, ?_, hround, ?_⟩
      · change ((SocketOp.start w).recorded cs).kernel.calls = cs.reverse
        rw [World.recorded_eq]
        exact List.append_nil _
      · rintro rfl x hx hxl
        exact hround.whole x (List.mem_filter.mpr ⟨hx, decide_eq_true hxl⟩)
    rw [World.receivedVector_of_le hlen]
    simp only [hempty, hsent, Bool.false_eq_true, if_false]
    rw [wp_sockets]
    unfold Prog.wp
    rw [hcs]
    cases thrown with
    | none => exact hechoed
    | some e => exact hechoed
  · intro k _ hno _
    exact hno hheard.2.1

/-! ### All clients -/

/-- Nobody can be served at a place whose socket is gone. -/
lemma serve_dead (hz : s.program.socks.get l = none) :
    Prog.wp (serve pl a l) (fun _ _ => False) (fun _ _ => False) (· = .danglingPointer) s := by
  rw [serve, wp_caught, Prog.wp_bind, wp_sockets, World.ready, Prog.wp_bind, World.request,
    Prog.wp_bind, World.wp_this_iff]
  refine ⟨fun v hv => ?_, fun _ => rfl⟩
  change s.program.socks.get l = some v at hv
  rw [hz] at hv
  cases hv

/-- The clients are served. The last of them may have left, and nothing but their sockets has
changed. -/
structure ServedAll (pl : Platform) (a : EchoAnswers) (ls : List Nat) (s t : EchoServer) :
    Prop where
  keeps : t.Keeps
  left : (∃ l ∈ ls.getLast?, a.Leaves pl l) → t.clientList = s.clientList.dropLast
  stays : (¬∃ l ∈ ls.getLast?, a.Leaves pl l) → t.clientList = s.clientList
  others : ∀ z, z ∉ s.clientList → t.program.socks.get z = s.program.socks.get z

lemma Served.last (h : Served pl a l s t) : ServedAll pl a [l] s t := by
  refine ⟨h.keeps, ?_, fun hno => h.stays fun hl => hno ⟨l, rfl, hl⟩, h.others⟩
  rintro ⟨_, ⟨⟩, hl⟩
  exact h.left hl

lemma Served.next {l' : Nat} {ls : List Nat} {u : EchoServer} (h : Served pl a l s t)
    (hl : ¬a.Leaves pl l) (hu : ServedAll pl a (l' :: ls) t u) :
    ServedAll pl a (l :: l' :: ls) s u := by
  have hclients := h.stays hl
  have hlast : (l :: l' :: ls).getLast? = (l' :: ls).getLast? := List.getLast?_cons_cons
  refine ⟨hu.keeps, fun hleft => ?_, fun hstay => ?_, fun z hz => ?_⟩
  · rw [← hclients]
    exact hu.left (hlast ▸ hleft)
  · rw [← hclients]
    exact hu.stays (hlast ▸ hstay)
  · rw [hu.others z (hclients ▸ hz), h.others z hz]

lemma ServedAll.subset {ls : List Nat} (h : ServedAll pl a ls s t) :
    ∀ x ∈ t.clientList, x ∈ s.clientList := by
  intro x hx
  by_cases hl : ∃ l ∈ ls.getLast?, a.Leaves pl l
  · rw [h.left hl] at hx
    exact List.mem_of_mem_dropLast hx
  · exact h.stays hl ▸ hx

/-- While nobody leaves but the last client, each place that is visited is that of a client. -/
lemma serveAll_spec (hw : pl.LibraryWorks) (h : s.Keeps) (ha : a.Handled pl F s) {ls : List Nat}
    (hls : ∀ l ∈ ls, l ∈ s.clientList) (hstay : ∀ l ∈ ls.dropLast, ¬a.Leaves pl l) :
    Prog.wp (serveAll pl a ls) (fun _ => ServedAll pl a ls s) (fun _ _ => False) F s := by
  induction ls generalizing s with
  | nil =>
    refine ⟨h, ?_, fun _ => rfl, fun _ _ => rfl⟩
    rintro ⟨_, ⟨⟩, _⟩
  | cons l ls ih =>
    rw [serveAll, Prog.wp_bind]
    apply Prog.wp_mono (serve_spec hw h ha (hls l List.mem_cons_self))
    · intro _ t ht
      cases ls with
      | nil => exact ht.last
      | cons l' ls =>
        have hclients := ht.stays (hstay l List.mem_cons_self)
        have hrest := ih ht.keeps (ht.handled ha)
          (fun x hx => hclients ▸ hls x (List.mem_cons_of_mem l hx))
          fun x hx => hstay x (List.mem_cons_of_mem l hx)
        apply Prog.wp_mono hrest
        · intro _ u hu
          exact ht.next (hstay l List.mem_cons_self) hu
        · intro _ _ hno
          exact hno
        · intro _ hf
          exact hf
    · intro _ _ hno
      exact hno
    · intro _ hf
      exact hf

/-- A loop that is to visit a place whose socket is gone uses it. -/
lemma serveAll_dead (hw : pl.LibraryWorks) (h : s.Keeps) (ha : a.Handled pl F s)
    (hF : F .danglingPointer) {ls : List Nat}
    (hls : ∀ l ∈ ls, l ∈ s.clientList ∨ s.program.socks.get l = none) {z : Nat} (hz : z ∈ ls)
    (hdead : s.program.socks.get z = none) :
    Prog.wp (serveAll pl a ls) (fun _ _ => False) (fun _ _ => False) F s := by
  induction ls generalizing s with
  | nil => cases hz
  | cons l ls ih =>
    rw [serveAll, Prog.wp_bind]
    rcases hls l List.mem_cons_self with hl | hl
    · apply Prog.wp_mono (serve_spec hw h ha hl)
      · intro _ t ht
        have hgone : ∀ x, s.program.socks.get x = none → t.program.socks.get x = none := by
          intro x hx
          rw [ht.others x fun hmem => ?_, hx]
          obtain ⟨v, hv, -⟩ := h.owners x hmem
          rw [hx] at hv
          cases hv
        have hzls : z ∈ ls := by
          rcases List.mem_cons.mp hz with rfl | hz
          · obtain ⟨v, hv, -⟩ := h.owners z hl
            rw [hdead] at hv
            cases hv
          · exact hz
        refine ih ht.keeps (ht.handled ha) (fun x hx => ?_) hzls (hgone z hdead)
        rcases hls x (List.mem_cons_of_mem l hx) with hx | hx
        · by_cases hxt : x ∈ t.clientList
          · exact Or.inl hxt
          · exact Or.inr (ht.empty x hx hxt)
        · exact Or.inr (hgone x hx)
      · intro _ _ hno
        exact hno
      · intro _ hf
        exact hf
    · apply Prog.wp_mono (serve_dead hl)
      · intro _ _ hno
        exact hno.elim
      · intro _ _ hno
        exact hno
      · rintro _ rfl
        exact hF

/-- When a client leaves and is not the last one, its loop goes on to the place that the vector
has lost. -/
lemma serveAll_leaves (hw : pl.LibraryWorks) (h : s.Keeps) (ha : a.Handled pl F s)
    (hF : F .danglingPointer) {before ls : List Nat} (hls : s.clientList = before ++ ls)
    (hleaves : ∃ l ∈ ls.dropLast, a.Leaves pl l) :
    Prog.wp (serveAll pl a ls) (fun _ _ => False) (fun _ _ => False) F s := by
  induction ls generalizing s before with
  | nil =>
    obtain ⟨l, hl, -⟩ := hleaves
    cases hl
  | cons l ls ih =>
    have hmem : ∀ x ∈ l :: ls, x ∈ s.clientList := by
      intro x hx
      exact hls ▸ List.mem_append_right before hx
    rw [serveAll, Prog.wp_bind]
    apply Prog.wp_mono (serve_spec hw h ha (hmem l List.mem_cons_self))
    · intro _ t ht
      cases ls with
      | nil =>
        obtain ⟨l, hl, -⟩ := hleaves
        cases hl
      | cons l' ls =>
        by_cases hl : a.Leaves pl l
        · obtain ⟨first, z, hsplit⟩ := List.eq_nil_or_concat' (l' :: ls) |>.resolve_left
            (List.cons_ne_nil l' ls)
          have hz : z ∈ l' :: ls := hsplit ▸ List.mem_append_right first (List.mem_singleton_self z)
          -- the last place is not one of the vector any more, but it is still to be visited
          have hgone : z ∉ t.clientList := by
            intro hkept
            have hnodup := h.nodup
            rw [hls, hsplit, ← List.cons_append, ← List.append_assoc] at hnodup
            rw [ht.left hl, hls, hsplit, ← List.cons_append, ← List.append_assoc,
              List.dropLast_concat] at hkept
            obtain ⟨-, -, hdisjoint⟩ := List.nodup_append.mp hnodup
            exact hdisjoint z hkept z (List.mem_singleton_self z) rfl
          have hclient := fun x hx => hmem x (List.mem_cons_of_mem l hx)
          refine serveAll_dead hw ht.keeps (ht.handled ha) hF (fun x hx => ?_) hz
            (ht.empty z (hclient z hz) hgone)
          by_cases hxt : x ∈ t.clientList
          · exact Or.inl hxt
          · exact Or.inr (ht.empty x (hclient x hx) hxt)
        · have hsplit : t.clientList = (before ++ [l]) ++ l' :: ls := by
            rw [ht.stays hl, hls, List.append_assoc]
            rfl
          obtain ⟨x, hx, hxl⟩ := hleaves
          rcases List.mem_cons.mp hx with rfl | hx
          · exact absurd hxl hl
          · exact ih ht.keeps (ht.handled ha) hsplit ⟨x, hx, hxl⟩
    · intro _ _ hno
      exact hno
    · intro _ hf
      exact hf

end EchoServer

/-! ### A new client -/

namespace EchoServer

variable {s : EchoServer} {a : EchoAnswers} {master_socket : Nat} {F : Fault → Prop}

/-- The clients are apart from the listener, which stays open. -/
structure Hosting (master_socket : Nat) (s : EchoServer) : Prop extends Keeps s where
  listener : ∃ v, s.program.socks.get master_socket = some v ∧ v.m_validFD = true
  apart : master_socket ∉ s.clientList

lemma Hosting.unmoved (h : s.Hosting master_socket) {w : World}
    (hw : (SocketOp.start s.program).Unmoved w) :
    Hosting master_socket { s with program := w } := by
  refine ⟨h.toKeeps.unmoved hw, ?_, h.apart⟩
  change ∃ v, w.socks.get master_socket = some v ∧ v.m_validFD = true
  rw [hw.socks]
  exact h.listener

lemma Hosting.servedAll {t : EchoServer} {ls : List Nat} (h : s.Hosting master_socket)
    (ht : ServedAll pl a ls s t) : t.Hosting master_socket := by
  refine ⟨ht.keeps, ?_, fun hmem => h.apart (ht.subset _ hmem)⟩
  rw [ht.others _ h.apart]
  exact h.listener

/-- What has been accepted is a client, once the temporary is gone. -/
lemma Hosting.pushed (h : s.Hosting master_socket) {t u : World} {peer : Nat} {w : Socket}
    {ys : List Nat} (ht : t.socks = s.program.socks.push w) (hvalid : w.m_validFD = true)
    (hlinear : Linear t) (hpeer : peer = s.program.socks.next)
    (hp : World.Pushed s.clientList peer ys t u) :
    Hosting master_socket ⟨{ u with socks := u.socks.erase peer }, ys⟩ := by
  obtain ⟨j, hj, hinvalid⟩ := hp.left
  have howner : ∀ z ∈ s.clientList ++ [peer],
      ∃ v, t.socks.get z = some v ∧ v.m_validFD = true := by
    intro z hz
    rcases List.mem_append.mp hz with hz | hz
    · obtain ⟨v, hv, hvv⟩ := h.owners z hz
      refine ⟨v, ?_, hvv⟩
      rw [ht]
      exact Store.get_push_of_some hv w
    · refine ⟨w, ?_, hvalid⟩
      rw [ht, List.mem_singleton.mp hz, hpeer, Store.get_push_self]
  have hfrom : ∀ y ∈ ys, ∃ z ∈ s.clientList ++ [peer], u.socks.get y = t.socks.get z := by
    intro y hy
    have hmem := List.mem_map_of_mem (f := u.socks.get) hy
    rw [hp.elements] at hmem
    obtain ⟨z, hz, hzy⟩ := List.mem_map.mp hmem
    exact ⟨z, hz, hzy.symm⟩
  have hkept : ∀ y, y ≠ peer → (u.socks.erase peer).get y = u.socks.get y := by
    intro y hy
    rw [Store.get_erase, if_neg hy]
  have howners : ∀ y ∈ ys, ∃ v, (u.socks.erase peer).get y = some v ∧ v.m_validFD = true := by
    intro y hy
    obtain ⟨z, hz, hzy⟩ := hfrom y hy
    obtain ⟨v, hv, hvv⟩ := howner z hz
    rw [← hzy] at hv
    refine ⟨v, ?_, hvv⟩
    rw [hkept y, hv]
    rintro rfl
    rw [hj] at hv
    cases hv
    rw [hvv] at hinvalid
    cases hinvalid
  obtain ⟨m, hm, hmv⟩ := h.listener
  have hne : master_socket ≠ peer := hpeer ▸ Store.ne_next hm
  have hmt : t.socks.get master_socket = some m := by
    rw [ht]
    exact Store.get_push_of_some hm w
  have hmu : u.socks.get master_socket = some m :=
    (hp.others _ h.apart hne (Store.lt_next hmt)).trans hmt
  refine ⟨⟨World.linear_erase hp.linear hj hinvalid, hp.nodup, howners⟩, ⟨m, ?_, hmv⟩, ?_⟩
  · exact (hkept _ hne).trans hmu
  · intro hmem
    obtain ⟨z, hz, hzm⟩ := hfrom _ hmem
    rw [hmu] at hzm
    have hsame := hlinear.sole master_socket z _ ⟨m, hmt, hmv, rfl⟩ ⟨m, hzm.symm, hmv, rfl⟩
    rcases List.mem_append.mp hz with hz | hz
    · exact h.apart (hsame ▸ hz)
    · exact hne (hsame.trans (List.mem_singleton.mp hz))

/-- The newest client is greeted, and the copy of its address goes. -/
lemma greet_spec (hw : pl.LibraryWorks) (h : s.Hosting master_socket) {x : Nat}
    (hx : x ∈ s.clientList) :
    Prog.wp (do
        let info ← sockets (World.connectedIPv4 pl x a.connected)
        Prog.ensuring (sockets (World.send pl x motd_message 0 a.greeted))
          (sockets (World.addresses (Addresses.destroyObject pl info))))
      (fun _ => Hosting master_socket) (fun _ => Hosting master_socket) (· ≠ .danglingPointer)
      s := by
  obtain ⟨v, hv, -⟩ := h.owners x hx
  have hstart := World.linear_start h.linear
  rw [Prog.wp_bind, wp_sockets]
  apply Prog.wp_mono (World.connectedIPv4_spec hw hstart (by exact hv) a.connected)
  · rintro info t ⟨ht, o, ho⟩
    have hlive : (SocketOp.start t).socks.get x = some v := by
      change t.socks.get x = some v
      rw [ht.socks]
      exact hv
    have hfreed : ∀ cs, Prog.wp (sockets (World.addresses (Addresses.destroyObject pl info)))
        (fun _ => Hosting master_socket) (fun _ => Hosting master_socket) (· ≠ .danglingPointer)
        { s with program := (SocketOp.start t).recorded cs } := by
      intro cs
      have hsent := ht.next (.of_recorded (World.linear_start ht.linear) cs)
      have hinfo : (SocketOp.start ((SocketOp.start t).recorded cs)).addr.heap.get info =
          some o := by
        rw [World.recorded_eq]
        exact ho
      rw [wp_sockets]
      apply Prog.wp_mono (World.destroyObject_spec (World.linear_start hsent.linear) hinfo)
      · intro _ u hu
        exact h.unmoved (hsent.next hu)
      · intro _ _ hno
        exact hno.elim
      · intro _ hf
        exact hf
    rw [Prog.wp_ensuring, wp_sockets]
    apply Prog.wp_mono (World.sendLoop_recorded hlive _ motd_message 0 a.greeted)
    · rintro _ _ ⟨cs, rfl⟩
      exact hfreed cs
    · rintro _ _ ⟨cs, rfl⟩
      exact hfreed cs
    · intro _ hf
      exact hf
  · intro _ t ht
    exact h.unmoved ht
  · intro _ hf
    exact hf

/-- What has been accepted is pushed back, and its client greeted. -/
lemma admit_spec (hw : pl.LibraryWorks) (h : s.Hosting master_socket) {t : World} {peer : Nat}
    {w : Socket} (hlinear : Linear t) (hpeer : peer = s.program.socks.next)
    (hvalid : w.m_validFD = true) (ht : t.socks = s.program.socks.push w) :
    Prog.wp (do
        let xs ← Prog.gets EchoServer.clientList
        let ys ← sockets (World.pushBack pl xs peer a.full a.junk a.localName)
        Prog.modify fun s => { s with clientList := ys }
        sockets (World.destroy pl peer (.error 0))
        let lastConnectedClient ← Prog.demand ys.getLast? .danglingPointer
        let info ← sockets (World.connectedIPv4 pl lastConnectedClient a.connected)
        Prog.ensuring (sockets (World.send pl lastConnectedClient motd_message 0 a.greeted))
          (sockets (World.addresses (Addresses.destroyObject pl info))))
      (fun _ => Hosting master_socket) (fun _ => Hosting master_socket) (· ≠ .danglingPointer)
      { s with program := t } := by
  have hlive : ∀ x ∈ s.clientList, ∃ v, (SocketOp.start t).socks.get x = some v := by
    intro x hx
    obtain ⟨v, hv, -⟩ := h.owners x hx
    refine ⟨v, ?_⟩
    change t.socks.get x = some v
    rw [ht]
    exact Store.get_push_of_some hv w
  have hnew : (SocketOp.start t).socks.get peer = some w := by
    change t.socks.get peer = some w
    rw [ht, hpeer, Store.get_push_self]
  have hfresh : peer ∉ s.clientList := by
    intro hmem
    obtain ⟨v, hv, -⟩ := h.owners peer hmem
    exact Store.ne_next hv hpeer
  rw [Prog.wp_bind, Prog.wp_gets, Prog.wp_bind, wp_sockets]
  apply Prog.wp_mono (World.pushBack_spec pl (World.linear_start hlinear) h.nodup hlive hnew
    hfresh a.full a.junk a.localName)
  · intro ys u hp
    obtain ⟨j, hj, hinvalid⟩ := hp.left
    have hhosting := h.pushed (t := SocketOp.start t) ht hvalid (World.linear_start hlinear)
      hpeer hp
    have hstart : SocketOp.start u = u := by
      rw [hp.same]
      rfl
    rw [Prog.wp_bind, Prog.wp_modify, Prog.wp_bind, wp_sockets]
    refine (World.wp_destroy_invalid (by exact hj) hinvalid).mpr ?_
    rw [Prog.wp_bind, Prog.wp_demand]
    refine ⟨fun x hx => ?_, fun hempty => ?_⟩
    · have hgreeted := greet_spec (a := a) hw hhosting (List.mem_of_getLast? hx)
      rw [← hstart] at hgreeted
      exact hgreeted
    · have helements := hp.elements
      rw [List.getLast?_eq_none_iff.mp hempty] at helements
      simp at helements
  · intro _ _ hno
    exact hno.elim
  · intro _ hf
    exact hf.elim

lemma acceptClient_spec (hw : pl.LibraryWorks) (h : s.Hosting master_socket) :
    Prog.wp (acceptClient pl a master_socket) (fun _ => Hosting master_socket) (fun _ _ => False)
      (· ≠ .danglingPointer) s := by
  obtain ⟨m, hm, hmv⟩ := h.listener
  have hstart := World.linear_start h.linear
  rw [acceptClient, wp_caught, Prog.wp_bind, wp_sockets]
  apply Prog.wp_mono (World.ready_spec (by exact hm) pl.POLLIN 0 a.pending)
  · rintro b t ⟨⟨cs, rfl⟩, -⟩
    have hready := h.unmoved (.of_recorded hstart cs)
    cases b with
    | false => exact hready
    | true =>
      obtain ⟨m', hm', -⟩ := hready.listener
      simp only [if_true]
      rw [Prog.wp_bind, wp_sockets]
      apply Prog.wp_mono (World.accept_spec hready.linear hm' a.accepted)
      · rintro peer t ⟨hlinear, hpeer, w, hvalid, ht⟩
        exact admit_spec hw hready hlinear hpeer hvalid ht
      · intro _ t ht
        exact hready.unmoved ht
      · intro _ hf
        exact hf
  · rintro _ t ⟨⟨cs, rfl⟩, -⟩
    exact h.unmoved (.of_recorded hstart cs)
  · intro _ hf
    exact hf.elim

/-! ### The whole loop -/

lemma serveClients_spec (hw : pl.LibraryWorks) (h : s.Hosting master_socket)
    (ha : a.Handled pl F s) (hstay : ∀ l ∈ s.clientList.dropLast, ¬a.Leaves pl l) :
    Prog.wp (serveClients pl a) (fun _ => ServedAll pl a s.clientList s) (fun _ _ => False) F
      s := by
  rw [serveClients, Prog.wp_bind, Prog.wp_gets]
  exact serveAll_spec hw h.toKeeps ha (fun _ hl => hl) hstay

lemma serveClients_breaks (hw : pl.LibraryWorks) (h : s.Hosting master_socket)
    (ha : a.Handled pl F s) (hF : F .danglingPointer)
    (hleaves : ∃ l ∈ s.clientList.dropLast, a.Leaves pl l) :
    ∃ k, serveClients pl a s = .fault k ∧ F k := by
  have hspec : Prog.wp (serveClients pl a) (fun _ _ => False) (fun _ _ => False) F s := by
    rw [serveClients, Prog.wp_bind, Prog.wp_gets]
    have hall : s.clientList = [] ++ s.clientList := rfl
    exact serveAll_leaves hw h.toKeeps ha hF hall hleaves
  unfold Prog.wp at hspec
  cases hout : serveClients pl a s with
  | fault k =>
    rw [hout] at hspec
    exact ⟨k, rfl, hspec⟩
  | ok _ t =>
    rw [hout] at hspec
    exact hspec.elim
  | throw e t =>
    rw [hout] at hspec
    exact hspec.elim

lemma Hosting.step (hw : pl.LibraryWorks) (h : s.Hosting master_socket) {op : EchoOp}
    {t : EchoServer} (hs : op.step pl master_socket s = some t) : t.Hosting master_socket := by
  cases op with
  | acceptClient a =>
    refine Prog.resume_of_wp (P := Hosting master_socket) (F := fun _ => True) ?_ hs
    apply Prog.wp_mono (acceptClient_spec hw h)
    · intro _ _ ht
      exact ht
    · intro _ _ hno
      exact hno.elim
    · intro _ _
      trivial
  | serveClients a =>
    by_cases hleaves : ∃ l ∈ s.clientList.dropLast, a.Leaves pl l
    · have hany : a.Handled pl (fun _ => True) s :=
        (EchoAnswers.handled_sound pl a s).mono fun _ _ => trivial
      obtain ⟨k, hk, -⟩ := serveClients_breaks hw h hany trivial hleaves
      change (serveClients pl a s).resume = some t at hs
      rw [hk] at hs
      cases hs
    · refine Prog.resume_of_wp (P := Hosting master_socket) (F := fun _ => True) ?_ hs
      apply Prog.wp_mono (serveClients_spec hw h (EchoAnswers.handled_sound pl a s)
        fun l hl hll => hleaves ⟨l, hl, hll⟩)
      · intro _ _ ht
        exact h.servedAll ht
      · intro _ _ hno
        exact hno.elim
      · intro _ _
        trivial

/-- What can be relied on before each half of the loop, and what cannot. -/
structure Serves (pl : Platform) (master_socket : Nat) (s : EchoServer) : Prop where
  nodup : (master_socket :: s.clientList).Nodup
  owners : ∀ x ∈ master_socket :: s.clientList,
    ∃ i d, s.program.kernel.descs.get i = some d ∧ OwnedBy s.program x d
  distinct : ∀ x y v w, s.program.socks.get x = some v → s.program.socks.get y = some w →
    x ∈ s.clientList → y ∈ s.clientList → v.m_sockFD = w.m_sockFD → x = y
  echoes : ∀ l ∈ s.clientList, ∀ message f m, message.length ≤ m →
    (pl.windows = false ∨ message.length < 2 ^ 31) →
    (∀ x ∈ s.clientList, x ≠ l → Admissible pl (f x) message.length) →
    ∃ cs thrown, World.Round pl s.program f message (s.clientList.filter (· ≠ l)) cs thrown ∧
      World.sendOn pl l message (fun x => (List.range m).map (f x)) s.clientList
        (SocketOp.start s.program) = (SocketOp.start s.program).ended cs thrown
  accepts : ∀ a, acceptClient pl a master_socket s ≠ .fault .danglingPointer
  serves : ∀ a, (∀ l ∈ s.clientList.dropLast, ¬a.Leaves pl l) →
    serveClients pl a s ≠ .fault .danglingPointer ∧
    ∀ t, serveClients pl a s = .ok () t →
      ((∃ l ∈ s.clientList.getLast?, a.Leaves pl l) → t.clientList = s.clientList.dropLast) ∧
      ((¬∃ l ∈ s.clientList.getLast?, a.Leaves pl l) → t.clientList = s.clientList)
  returns : ∀ a, a.Fits pl s → (∀ l ∈ s.clientList.dropLast, ¬a.Leaves pl l) →
    ∃ t, serveClients pl a s = .ok () t
  breaks : ∀ a, (∃ l ∈ s.clientList.dropLast, a.Leaves pl l) →
    (∃ k, serveClients pl a s = .fault k) ∧
    (a.Fits pl s → serveClients pl a s = .fault .danglingPointer)

lemma Hosting.serves (hw : pl.LibraryWorks) (h : s.Hosting master_socket) :
    Serves pl master_socket s where
  nodup := List.nodup_cons.mpr ⟨h.apart, h.nodup⟩
  owners x hx := by
    have hvalid : ∃ v, s.program.socks.get x = some v ∧ v.m_validFD = true := by
      rcases List.mem_cons.mp hx with rfl | hx
      · exact h.listener
      · exact h.owners x hx
    obtain ⟨v, hv, hvv⟩ := hvalid
    exact h.linear.linearOwnership.valid x v hv hvv
  distinct x y v w hv hw hx hy hfd := h.toKeeps.differ hy hx hv hw hfd
  echoes l hl message f m hm hfit hf := by
    obtain ⟨w, hw, -⟩ := h.owners l hl
    refine World.sendOn_round pl hm hw (fun x hx => ?_) hf hfit rfl
    obtain ⟨v, hv, -⟩ := h.owners x hx
    exact ⟨v, hv, h.toKeeps.differ hl hx hv hw⟩
  accepts a hfault := by
    have hspec := acceptClient_spec (a := a) hw h
    rw [Prog.wp, hfault] at hspec
    exact hspec rfl
  serves a hstay := by
    have hspec := serveClients_spec hw h (EchoAnswers.handled_sound pl a s) hstay
    refine ⟨fun hfault => ?_, fun t ht => ?_⟩
    · rw [Prog.wp, hfault] at hspec
      exact hspec rfl
    · rw [Prog.wp, ht] at hspec
      exact ⟨hspec.left, hspec.stays⟩
  returns a hfits hstay := by
    obtain ⟨_, t, ht, -⟩ := Prog.exists_ok_of_wp (serveClients_spec hw h (hfits.handled hw) hstay)
    exact ⟨t, ht⟩
  breaks a hleaves := by
    constructor
    · have hany : a.Handled pl (fun _ => True) s :=
        (EchoAnswers.handled_sound pl a s).mono fun _ _ => trivial
      obtain ⟨k, hk, -⟩ := serveClients_breaks hw h hany trivial hleaves
      exact ⟨k, hk⟩
    · intro hfits
      have hdangling : a.Handled pl (· = .danglingPointer) s :=
        (hfits.handled hw).mono fun _ hf => hf.elim
      obtain ⟨k, hk, rfl⟩ := serveClients_breaks hw h hdangling rfl hleaves
      exact hk

/-- A program that has made a listener has no clients yet. -/
lemma hosting_of_run {autoInitialize : Bool} {files : List (List UInt8)} {ops : List ProgramOp}
    {s : World} {v : Socket}
    (hg : Guarded (ProgramOp.step pl) ReleasesOwn (World.initial autoInitialize files) ops)
    (hs : run (ProgramOp.step pl) (World.initial autoInitialize files) ops = some s)
    (hv : s.socks.get master_socket = some v) (hvalid : v.m_validFD = true) :
    Hosting master_socket ⟨s, []⟩ := by
  have hlinear : Linear s :=
    (along_of_guarded (fun _ _ _ h hop ht => h.step hop ht)
      (Linear.initial autoInitialize files) hg).last hs
  refine ⟨⟨hlinear, List.nodup_nil, fun x hx => ?_⟩, ⟨v, hv, hvalid⟩, fun hmem => ?_⟩
  · cases hx
  · cases hmem

end EchoServer

open EchoServer

/-- In every run of the server, its clients keep open descriptors of their own, and a message goes
to all the others. With answers that fit, a serving round comes to its end exactly where nobody
leaves but the last client. -/
theorem echo_server_serves (pl : Platform) (hw : pl.LibraryWorks) (autoInitialize : Bool)
    (files : List (List UInt8)) (ops : List ProgramOp) (s : World) (master_socket : Nat)
    (v : Socket)
    (hg : Guarded (ProgramOp.step pl) ReleasesOwn (World.initial autoInitialize files) ops)
    (hs : run (ProgramOp.step pl) (World.initial autoInitialize files) ops = some s)
    (hv : s.socks.get master_socket = some v) (hvalid : v.m_validFD = true)
    (rounds : List EchoOp) :
    Along (EchoOp.step pl master_socket) (Serves pl master_socket) ⟨s, []⟩ rounds :=
  along_of_step (fun _ h => h.serves hw) (fun _ _ _ h hop => h.step hw hop)
    (hosting_of_run hg hs hv hvalid)

/-- `127.0.0.1:8888` -/
def localhost : SockaddrStorage :=
  ⟨2 :: 0 :: 34 :: 184 :: 127 :: 0 :: 0 :: 1 :: List.replicate 120 0, rfl⟩

def bindsAndListens : List ProgramOp :=
  [.library (.create 2 1 0 (.ok 3)), .library (.member 0 (.bind localhost 16 (.ok ()))),
    .library (.member 0 (.listen 3 (.ok ())))]

def listener : World :=
  (run (ProgramOp.step linuxHost) (World.initial true []) bindsAndListens).getD
    (World.initial true [])

/-- A new client with this number is there, and one client sends these bytes. -/
def heard (fd : Int) (l : Nat) (message : List UInt8) : EchoAnswers where
  pending := .ok 1
  accepted := .ok fd
  full := true
  junk _ := ⟨true, 9, 2, 1, 0⟩
  connected := .ok (localhost, 16)
  greeted := [.ok 20, .ok 6]
  ready x := .ok (if x = l then 1 else 0)
  name _ := .ok (localhost, 16)
  payload _ := .ok message
  sent _ _ := [.ok message.length]
  localName _ := .ok (localhost, 16)

/-- Two clients come, and the first one sends something. -/
def twoClients : List EchoOp :=
  [.acceptClient (heard 4 0 []), .acceptClient (heard 5 0 []),
    .serveClients (heard 6 5 (bytes "hi"))]

lemma bindsAndListens_releasesOwn :
    Guarded (ProgramOp.step linuxHost) ReleasesOwn (World.initial true []) bindsAndListens := by
  apply guarded_of_forall
  intro s op hop
  simp only [bindsAndListens, List.mem_cons, List.not_mem_nil, or_false] at hop
  rcases hop with rfl | rfl | rfl
  · trivial
  · trivial
  · trivial

theorem echo_server_serves_linux :
    Along (EchoOp.step linuxHost 0) (Serves linuxHost 0) ⟨listener, []⟩ twoClients :=
  echo_server_serves linuxHost (libraryWorks_numericHost false false true) true []
    bindsAndListens listener 0 ⟨true, 3, 2, 1, 0⟩ bindsAndListens_releasesOwn rfl rfl rfl
    twoClients

/-- The last client may leave, the first one may not. -/
example :
    ((run (EchoOp.step linuxHost 0) ⟨listener, []⟩
      (twoClients ++ [.serveClients (heard 6 4 [])])).map EchoServer.clientList = some [5]) ∧
    (run (EchoOp.step linuxHost 0) ⟨listener, []⟩
      (twoClients ++ [.serveClients (heard 6 5 [])])).isNone := by
  decide +kernel

/-- In every run of the server, what is received from a client is what the others get. -/
theorem echo_server_echoes (pl : Platform) (hw : pl.LibraryWorks) (autoInitialize : Bool)
    (files : List (List UInt8)) (ops : List ProgramOp) (s : World) (master_socket : Nat)
    (v : Socket)
    (hg : Guarded (ProgramOp.step pl) ReleasesOwn (World.initial autoInitialize files) ops)
    (hs : run (ProgramOp.step pl) (World.initial autoInitialize files) ops = some s)
    (hv : s.socks.get master_socket = some v) (hvalid : v.m_validFD = true)
    (rounds : List EchoOp) :
    Along (EchoOp.step pl master_socket)
      (fun s => ∀ a l message f m, l ∈ s.clientList → a.Says pl l message → message ≠ [] →
        message.length ≤ 0x10000 → message.length ≤ m →
        (a.sent l = fun x => (List.range m).map (f x)) →
        (∀ x ∈ s.clientList, x ≠ l → Admissible pl (f x) message.length) →
        ∃ t, serve pl a l s = .ok () t ∧ Echoed pl l message f s t)
      ⟨s, []⟩ rounds := by
  refine along_of_step (fun s h a l message f m hl hheard hne hlen hm hsent hf => ?_)
    (fun _ _ _ h hop => Hosting.step hw h hop) (hosting_of_run hg hs hv hvalid)
  obtain ⟨_, t, ht, hechoed⟩ :=
    Prog.exists_ok_of_wp (serve_echoes hw h.toKeeps hl hheard hne hlen hm hsent hf)
  exact ⟨t, ht, hechoed⟩

/-- Two calls would be enough for two bytes; the kernel takes both in the first one. -/
def saysHi : EchoAnswers :=
  { heard 6 5 (bytes "hi") with sent := fun _ _ => [.ok 2, .ok 2] }

def twoGuests : EchoServer :=
  (run (EchoOp.step linuxHost 0) ⟨listener, []⟩ twoClients).getD ⟨listener, []⟩

lemma run_twoClients :
    run (EchoOp.step linuxHost 0) ⟨listener, []⟩ twoClients = some twoGuests := by
  have hsome : (run (EchoOp.step linuxHost 0) ⟨listener, []⟩ twoClients).isSome := by
    decide +kernel
  obtain ⟨s, hs⟩ := Option.isSome_iff_exists.mp hsome
  rw [twoGuests, hs]
  rfl

lemma saysHi_heard : saysHi.Says linuxHost 5 (bytes "hi") := by
  have htells : (decode linuxHost localhost 16).map Except.isOk = some true := by decide +kernel
  obtain ⟨r, hr, hok⟩ := Option.map_eq_some_iff.mp htells
  cases r with
  | error e => cases hok
  | ok o => exact ⟨⟨1, rfl, by decide⟩, ⟨localhost, 16, o, rfl, hr⟩, rfl⟩

lemma admissible_hi : Admissible linuxHost (fun _ => .ok 2) (bytes "hi").length := by
  intro n r _ hlt hr
  cases hr
  cases n with
  | zero => exact ⟨by decide, by decide⟩
  | succ n =>
    have hlen : (bytes "hi").length = 2 := by decide
    rw [accepted, count] at hlt
    omega

theorem echo_server_echoes_linux : ∃ t, serve linuxHost saysHi 5 twoGuests = .ok () t ∧
    Echoed linuxHost 5 (bytes "hi") (fun _ _ => .ok 2) twoGuests t := by
  have hclient : 5 ∈ twoGuests.clientList := by decide +kernel
  exact (echo_server_echoes linuxHost (libraryWorks_numericHost false false true) true []
    bindsAndListens listener 0 ⟨true, 3, 2, 1, 0⟩ bindsAndListens_releasesOwn rfl rfl rfl
    twoClients).last run_twoClients saysHi 5 (bytes "hi") _ 2 hclient saysHi_heard (by decide)
    (by decide) (by decide) rfl fun _ _ _ => admissible_hi

end SockLib
