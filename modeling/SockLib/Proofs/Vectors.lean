import SockLib.Model.Vectors
import SockLib.Proofs.Handles

/-!
# Sockets in a vector

A vector of sockets holds what was pushed back and has not been erased. `std::remove` gets its
value by reference, and its move assignments exchange descriptors: the value is overwritten while
the loop compares with it, and what it held ends up behind the others, where it is destroyed.
-/

namespace SockLib

variable {pl : Platform}

namespace World

variable {s : World} {x y value : Nat} {a b : Socket}

/-! ### Moving objects about -/

lemma wp_equals {E : Exn → World → Prop} {F : Fault → Prop} {Q : Bool → World → Prop}
    (hx : s.socks.get x = some a) (hy : s.socks.get y = some b) :
    Prog.wp (equals x y) Q E F s ↔ Q (decide (a.m_sockFD = b.m_sockFD)) s := by
  rw [Prog.wp, (equals_eq hx hy).1]

/-- Objects may change places as long as the same numbers are owned. -/
lemma linear_of_owned {t : World} (h : Linear s) (howned : ∀ n, Owned t.socks n ↔ Owned s.socks n)
    (hsole : Sole t.socks) (haddr : t.addr = s.addr) (hdescs : t.kernel.descs = s.kernel.descs)
    (hfiles : t.kernel.files = s.kernel.files) : Linear t := by
  have hc : Change linuxHost s t := .of_same howned haddr hdescs hfiles
  exact h.change hc hsole

lemma linear_start (h : Linear s) : Linear (SocketOp.start s) :=
  linear_of_owned h (fun _ => Iff.rfl) h.sole rfl rfl rfl

lemma linear_exchange (h : Linear s) (hx : s.socks.get x = some a)
    (hy : s.socks.get y = some b) :
    Linear { s with socks := (s.socks.put x b).put y a } :=
  linear_of_owned h (fun _ => owned_exchange hx hy fun _ => rfl)
    (h.sole.exchange hx hy fun _ => rfl) rfl rfl rfl

lemma linear_move (h : Linear s) (hy : s.socks.get y = some b) {j : Socket}
    (hj : j.m_validFD = false) : Linear { s with socks := (s.socks.push b).put y j } :=
  linear_of_owned h (fun _ => owned_move hy hj) (h.sole.move hy hj) rfl rfl rfl

lemma linear_erase (h : Linear s) (hx : s.socks.get x = some a) (ha : a.m_validFD = false) :
    Linear { s with socks := s.socks.erase x } :=
  linear_of_owned h (fun _ => owned_without_invalid hx ha fun _ _ => owner_erase) h.sole.erase
    rfl rfl rfl

/-- A descriptor has one holder. -/
lemma eq_of_object (h : Linear s) {g k : Handle} (hx : s.handles.object x = some (some g))
    (hy : s.handles.object y = some (some k)) (hdesc : g.desc = k.desc) : x = y := by
  have howner : ∀ {z : Nat} {g : Handle}, s.handles.object z = some (some g) →
      ∃ d, s.kernel.descs.get g.desc = some d ∧ Owner s.socks z d.number := by
    intro z g hz
    obtain ⟨v, hv, hvalid, hhandle⟩ := valid_of_object hz
    obtain ⟨i, d, -, hd, -, hnum, -, -, hhandle'⟩ := handle_of_valid h hv hvalid
    rw [hhandle'] at hhandle
    cases hhandle
    exact ⟨d, hd, v, hv, hvalid, hnum.symm⟩
  obtain ⟨d, hd, hdx⟩ := howner hx
  obtain ⟨e, he, hey⟩ := howner hy
  rw [hdesc, he] at hd
  cases hd
  exact h.sole x y _ hdx hey

/-- Objects that have the same stand for the same. -/
lemma objects_eq {t : World} (hdescs : t.kernel.descs = s.kernel.descs) {xs ys : List Nat}
    (h : xs.map t.socks.get = ys.map s.socks.get) :
    xs.map t.handles.object = ys.map s.handles.object := by
  have hhandle : Socket.handle t.kernel = Socket.handle s.kernel :=
    funext fun v => Socket.handle_congr fun _ => Kernel.lookup_congr hdescs
  have hmap : ∀ (u : World) (zs : List Nat), zs.map u.handles.object =
      (zs.map u.socks.get).map (Option.map (Socket.handle u.kernel)) := by
    intro u zs
    rw [List.map_map]
    rfl
  rw [hmap, hmap, h, hhandle]

/-! ### Removing -/

/-- Sockets with different numbers, none of them that of the value. -/
structure Apart (s : World) (value : Nat) (xs : List Nat) : Prop where
  live : ∀ x ∈ xs, ∃ a, s.socks.get x = some a
  differ : xs.Pairwise fun x y => ∀ a b, s.socks.get x = some a → s.socks.get y = some b →
    a.m_sockFD ≠ b.m_sockFD
  value : ∃ v, s.socks.get value = some v ∧
    ∀ x ∈ xs, ∀ a, s.socks.get x = some a → a.m_sockFD ≠ v.m_sockFD

/-- Once an element has been assigned, the value may be another one; it still differs from all
that are left. -/
lemma Apart.assigned {first : Nat} {xs : List Nat} (h : s.Apart value (x :: xs))
    (hf : s.socks.get first = some b) (hx : s.socks.get x = some a)
    (hnodup : (first :: x :: xs).Nodup) (hvalue : value ∉ x :: xs) :
    Apart { s with socks := (s.socks.put first a).put x b } value xs := by
  obtain ⟨c, hc⟩ := Store.exists_get_put hf hx a
  have hget : ∀ z, ((s.socks.put first a).put x b).get z =
      if z = x then some b else if z = first then some a else s.socks.get z := by
    intro z
    rw [Store.get_put hc, Store.get_put hf]
  simp only [List.nodup_cons, List.mem_cons, not_or] at hnodup hvalue
  obtain ⟨⟨hfx, hfxs⟩, hxxs, -⟩ := hnodup
  have hsame : ∀ z ∈ xs, ((s.socks.put first a).put x b).get z = s.socks.get z := by
    intro z hz
    rw [hget, if_neg (ne_of_mem_of_not_mem hz hxxs), if_neg (ne_of_mem_of_not_mem hz hfxs)]
  obtain ⟨hdiffer, hpair⟩ := List.pairwise_cons.mp h.differ
  refine ⟨fun z hz => ?_, ?_, ?_⟩
  · change ∃ a', ((s.socks.put first a).put x b).get z = some a'
    rw [hsame z hz]
    exact h.live z (List.mem_cons_of_mem x hz)
  · refine hpair.imp_of_mem ?_
    intro z w hz hw hzw c d hc hd
    exact hzw c d ((hsame z hz).symm.trans hc) ((hsame w hw).symm.trans hd)
  · by_cases hvf : value = first
    · refine ⟨a, ?_, fun z hz c hc heq => ?_⟩
      · exact (hget value).trans (by rw [if_neg hvalue.1, if_pos hvf])
      · exact hdiffer z hz a c hx ((hsame z hz).symm.trans hc) heq.symm
    · obtain ⟨v, hv, hall⟩ := h.value
      refine ⟨v, ?_, fun z hz c hc => ?_⟩
      · exact (hget value).trans (by rw [if_neg hvalue.1, if_neg hvf, hv])
      · exact hall z (List.mem_cons_of_mem x hz) c ((hsame z hz).symm.trans hc)

/-- The objects `ys` have what the objects `xs` had, in this order, and nothing else is changed. -/
structure Rearranged (xs ys : List Nat) (s t : World) : Prop where
  linear : Linear t
  same : t = { s with socks := t.socks }
  next : t.socks.next = s.socks.next
  elements : xs.map t.socks.get = ys.map s.socks.get
  others : ∀ z, z ∉ xs → t.socks.get z = s.socks.get z

/-- The loop takes the first element behind all others. -/
lemma shift_spec (h : Linear s) {first : Nat} {xs : List Nat} (hnodup : (first :: xs).Nodup)
    (hvalue : value ∉ xs) (hf : s.socks.get first = some b) (ha : s.Apart value xs) :
    Prog.wp (shift value first [] xs)
      (fun r t => ∃ last, r.1 ++ [last] = first :: xs ∧ r.2 = [last] ∧
        Rearranged (first :: xs) (xs ++ [first]) s t)
      (fun _ _ => False) (fun _ => False) s := by
  induction xs generalizing s first b with
  | nil => exact ⟨first, rfl, rfl, h, rfl, rfl, rfl, fun _ _ => rfl⟩
  | cons x xs ih =>
    obtain ⟨a, hx⟩ := ha.live x List.mem_cons_self
    obtain ⟨v, hv, hdiffer⟩ := ha.value
    have hne := hdiffer x List.mem_cons_self a hx
    rw [shift, Prog.wp_bind, wp_equals hx hv, decide_eq_false hne, if_neg Bool.false_ne_true,
      Prog.wp_bind, moveAssign, wp_swapMembers hf hx, Prog.wp_bind]
    let u : World := { s with socks := (s.socks.put first a).put x b }
    have hget : ∀ z, u.socks.get z =
        if z = x then some b else if z = first then some a else s.socks.get z := by
      intro z
      obtain ⟨c, hc⟩ := Store.exists_get_put hf hx a
      exact (Store.get_put hc b z).trans (by rw [Store.get_put hf])
    have hux : u.socks.get x = some b := (hget x).trans (if_pos rfl)
    have hrest := ih (s := u) (linear_exchange h hf hx) (List.nodup_cons.mp hnodup).2
      (fun hmem => hvalue (List.mem_cons_of_mem x hmem)) hux (ha.assigned hf hx hnodup hvalue)
    refine Prog.wp_mono hrest (fun r t => ?_) (fun _ _ h => h) (fun _ h => h)
    rintro ⟨last, hkept, hleft, hr⟩
    simp only [List.nodup_cons, List.mem_cons, not_or] at hnodup
    obtain ⟨⟨hfx, hfxs⟩, hxxs, -⟩ := hnodup
    refine ⟨last, by rw [← hkept]; rfl, hleft, hr.linear, hr.same, ?_, ?_, ?_⟩
    · rw [hr.next]
      simp [u]
    · have hfirst : t.socks.get first = s.socks.get x := by
        rw [hr.others first (by simp [hfx, hfxs]), hget, if_neg hfx, if_pos rfl, hx]
      have hsame : xs.map u.socks.get = xs.map s.socks.get := by
        refine List.map_congr_left fun z hz => ?_
        rw [hget, if_neg (ne_of_mem_of_not_mem hz hxxs),
          if_neg (ne_of_mem_of_not_mem hz hfxs)]
      rw [List.map_cons, hr.elements, List.map_append, hsame, hfirst]
      simp [hux, hf]
    · intro z hz
      simp only [List.mem_cons, not_or] at hz
      rw [hr.others z (by simp [hz]), hget, if_neg hz.2.1, if_neg hz.1]

/-- What `find` finds is the value itself. -/
lemma find_spec {before after : List Nat} {v : Socket} (hv : s.socks.get value = some v)
    (hlive : ∀ x ∈ before, ∃ a, s.socks.get x = some a ∧ a.m_sockFD ≠ v.m_sockFD) :
    Prog.wp (find value (before ++ value :: after))
      (fun r t => r = (before, value :: after) ∧ t = s) (fun _ _ => False) (fun _ => False) s := by
  induction before with
  | nil =>
    rw [List.nil_append, find, Prog.wp_bind, wp_equals hv hv, decide_eq_true rfl, if_pos rfl]
    exact ⟨rfl, rfl⟩
  | cons x before ih =>
    obtain ⟨a, hx, hne⟩ := hlive x List.mem_cons_self
    rw [List.cons_append, find, Prog.wp_bind, wp_equals hx hv, decide_eq_false hne,
      if_neg Bool.false_ne_true, Prog.wp_bind]
    refine Prog.wp_mono (ih fun z hz => hlive z (List.mem_cons_of_mem x hz)) (fun r t => ?_)
      (fun _ _ h => h) (fun _ h => h)
    rintro ⟨rfl, rfl⟩
    exact ⟨rfl, rfl⟩

/-- `std::remove` keeps the others in their order and leaves the value behind them. -/
lemma remove_spec (h : Linear s) {xs : List Nat} (hnodup : xs.Nodup)
    (howners : ∀ x ∈ xs, ∃ v, s.socks.get x = some v ∧ v.m_validFD = true) (hvalue : value ∈ xs) :
    Prog.wp (remove value xs)
      (fun r t => ∃ last, r.1 ++ [last] = xs ∧ r.2 = [last] ∧
        Rearranged xs (xs.erase value ++ [value]) s t)
      (fun _ _ => False) (fun _ => False) s := by
  have hdiffer : ∀ x ∈ xs, ∀ y ∈ xs, x ≠ y → ∀ a b, s.socks.get x = some a →
      s.socks.get y = some b → a.m_sockFD ≠ b.m_sockFD := by
    intro x hx y hy hne a b ha hb heq
    obtain ⟨v, hv, hvalid⟩ := howners x hx
    obtain ⟨w, hw, hwalid⟩ := howners y hy
    obtain rfl : a = v := Option.some.inj (ha.symm.trans hv)
    obtain rfl : b = w := Option.some.inj (hb.symm.trans hw)
    exact hne (h.sole x y _ ⟨a, ha, hvalid, heq⟩ ⟨b, hb, hwalid, rfl⟩)
  obtain ⟨before, after, rfl⟩ := List.append_of_mem hvalue
  obtain ⟨v, hv, -⟩ := howners value hvalue
  obtain ⟨-, hrest, hdisjoint⟩ := List.nodup_append.mp hnodup
  obtain ⟨hafter, -⟩ := List.nodup_cons.mp hrest
  have hbefore : ∀ x ∈ before, x ≠ value := fun x hx => hdisjoint x hx value List.mem_cons_self
  have happart : s.Apart value after := by
    refine ⟨fun x hx => ?_, ?_, v, hv, fun x hx a ha => ?_⟩
    · obtain ⟨a, ha, -⟩ := howners x (by simp [hx])
      exact ⟨a, ha⟩
    · refine (List.nodup_cons.mp hrest).2.imp_of_mem ?_
      intro x y hx hy hne
      exact hdiffer x (by simp [hx]) y (by simp [hy]) hne
    · exact hdiffer x (by simp [hx]) value hvalue (ne_of_mem_of_not_mem hx hafter) a v ha hv
  have hlive : ∀ x ∈ before, ∃ a, s.socks.get x = some a ∧ a.m_sockFD ≠ v.m_sockFD := by
    intro x hx
    obtain ⟨a, ha, -⟩ := howners x (by simp [hx])
    exact ⟨a, ha, hdiffer x (by simp [hx]) value hvalue (hbefore x hx) a v ha hv⟩
  rw [remove, Prog.wp_bind]
  refine Prog.wp_mono (find_spec hv hlive) (fun r u => ?_) (fun _ _ h => h) (fun _ h => h)
  rintro ⟨rfl, hu⟩
  rw [hu, Prog.wp_bind]
  refine Prog.wp_mono (shift_spec h hrest hafter hv happart) (fun r t => ?_) (fun _ _ h => h)
    (fun _ h => h)
  rintro ⟨last, hkept, hleft, hr⟩
  refine ⟨last, by rw [← hkept, List.append_assoc], hleft, hr.linear, hr.same, hr.next, ?_, ?_⟩
  · have hsame : before.map t.socks.get = before.map s.socks.get := by
      refine List.map_congr_left fun z hz => hr.others z fun hmem => ?_
      exact hdisjoint z hz z hmem rfl
    have herase : (before ++ value :: after).erase value = before ++ after := by
      rw [List.erase_append_right _ fun hmem => hbefore value hmem rfl, List.erase_cons_head]
    rw [herase, List.map_append, hr.elements, hsame]
    simp
  · intro z hz
    exact hr.others z fun hmem => hz (List.mem_append_right before hmem)

/-! ### Pushing back -/

/-- New objects `ys` have what the objects `xs` had, and these own nothing any more. -/
structure Moved (xs ys : List Nat) (s t : World) : Prop where
  linear : Linear t
  same : t = { s with socks := t.socks }
  next : s.socks.next ≤ t.socks.next
  elements : ys.map t.socks.get = xs.map s.socks.get
  fresh : ∀ y ∈ ys, s.socks.next ≤ y
  nodup : ys.Nodup
  left : ∀ x ∈ xs, ∃ a, t.socks.get x = some a ∧ a.m_validFD = false
  others : ∀ z, z ∉ xs → z < s.socks.next → t.socks.get z = s.socks.get z

lemma moveAll_spec (h : Linear s) (junk : Nat → Socket) {xs : List Nat} (hnodup : xs.Nodup)
    (hlive : ∀ x ∈ xs, ∃ a, s.socks.get x = some a) :
    Prog.wp (moveAll junk xs) (fun ys t => Moved xs ys s t) (fun _ _ => False) (fun _ => False)
      s := by
  induction xs generalizing s with
  | nil =>
    refine ⟨h, rfl, Nat.le_refl _, rfl, ?_, List.nodup_nil, ?_, fun _ _ _ => rfl⟩
    · intro y hy
      cases hy
    · intro x hx
      cases hx
  | cons x xs ih =>
    obtain ⟨a, hx⟩ := hlive x List.mem_cons_self
    obtain ⟨hxxs, hxs⟩ := List.nodup_cons.mp hnodup
    let j : Socket := { junk x with m_validFD := false }
    let u : World := { s with socks := (s.socks.push a).put x j }
    have hlt := Store.lt_next hx
    have hget : ∀ z, u.socks.get z =
        if z = x then some j else if z = s.socks.next then some a else s.socks.get z := by
      intro z
      exact (Store.get_put (Store.get_push_of_some hx a) j z).trans (by rw [Store.get_push])
    have hnext : u.socks.next = s.socks.next + 1 := by simp [u]
    have hsame : ∀ z ∈ xs, u.socks.get z = s.socks.get z := by
      intro z hz
      obtain ⟨c, hc⟩ := hlive z (List.mem_cons_of_mem x hz)
      rw [hget, if_neg (ne_of_mem_of_not_mem hz hxxs), if_neg (Store.ne_next hc)]
    have hnotMem : s.socks.next ∉ xs := by
      intro hmem
      obtain ⟨c, hc⟩ := hlive _ (List.mem_cons_of_mem x hmem)
      exact Store.ne_next hc rfl
    have hrest := ih (s := u) (linear_move h hx rfl) hxs fun z hz => by
      rw [hsame z hz]
      exact hlive z (List.mem_cons_of_mem x hz)
    rw [moveAll, Prog.wp_bind, wp_moveConstruct hx, Prog.wp_bind]
    refine Prog.wp_mono hrest (fun ys t hm => ?_) (fun _ _ h => h) (fun _ h => h)
    refine ⟨hm.linear, hm.same, ?_, ?_, ?_, ?_, ?_, ?_⟩
    · have hle := hm.next
      omega
    · have hfirst : t.socks.get s.socks.next = s.socks.get x := by
        rw [hm.others _ hnotMem (by omega), hget, if_neg hlt.ne', if_pos rfl, hx]
      rw [List.map_cons, hfirst, hm.elements, List.map_cons, List.map_congr_left hsame]
    · intro y hy
      rcases List.mem_cons.mp hy with rfl | hy
      · exact Nat.le_refl _
      · have hle := hm.fresh y hy
        omega
    · refine List.nodup_cons.mpr ⟨fun hmem => ?_, hm.nodup⟩
      have hle := hm.fresh _ hmem
      omega
    · intro z hz
      rcases List.mem_cons.mp hz with rfl | hz
      · refine ⟨j, ?_, rfl⟩
        rw [hm.others z hxxs (by omega), hget, if_pos rfl]
      · exact hm.left z hz
    · intro z hz hzlt
      simp only [List.mem_cons, not_or] at hz
      rw [hm.others z hz.2 (by omega), hget, if_neg hz.1, if_neg hzlt.ne]

/-- Objects that own nothing go without a system call. -/
lemma destroyAll_spec (h : Linear s) (names : Nat → NameAnswer) {xs : List Nat}
    (hnodup : xs.Nodup) (hleft : ∀ x ∈ xs, ∃ a, s.socks.get x = some a ∧ a.m_validFD = false) :
    Prog.wp (destroyAll pl names xs)
      (fun _ t => Linear t ∧ t = { s with socks := t.socks } ∧
        ∀ z, z ∉ xs → t.socks.get z = s.socks.get z)
      (fun _ _ => False) (fun _ => False) s := by
  induction xs generalizing s with
  | nil => exact ⟨h, rfl, fun _ _ => rfl⟩
  | cons x xs ih =>
    obtain ⟨a, hx, ha⟩ := hleft x List.mem_cons_self
    obtain ⟨hxxs, hxs⟩ := List.nodup_cons.mp hnodup
    have hsame : ∀ z, z ≠ x → (s.socks.erase x).get z = s.socks.get z := by
      intro z hz
      rw [Store.get_erase, if_neg hz]
    have hrest := ih (s := { s with socks := s.socks.erase x }) (linear_erase h hx ha) hxs
      fun z hz => by
        obtain ⟨c, hc, hinvalid⟩ := hleft z (List.mem_cons_of_mem x hz)
        exact ⟨c, (hsame z (ne_of_mem_of_not_mem hz hxxs)).trans hc, hinvalid⟩
    rw [destroyAll, Prog.wp_bind, wp_destroy_invalid hx ha]
    refine Prog.wp_mono hrest (fun _ t => ?_) (fun _ _ h => h) (fun _ h => h)
    rintro ⟨hlinear, ht, hothers⟩
    refine ⟨hlinear, ht, fun z hz => ?_⟩
    simp only [List.mem_cons, not_or] at hz
    exact (hothers z hz.2).trans (hsame z hz.1)

/-- The elements `ys` have what the elements `xs` and the object `y` had, and `y` owns nothing any
more. -/
structure Pushed (xs : List Nat) (y : Nat) (ys : List Nat) (s t : World) : Prop where
  linear : Linear t
  same : t = { s with socks := t.socks }
  nodup : ys.Nodup
  elements : ys.map t.socks.get = (xs ++ [y]).map s.socks.get
  left : ∃ a, t.socks.get y = some a ∧ a.m_validFD = false
  others : ∀ z, z ∉ xs → z ≠ y → z < s.socks.next → t.socks.get z = s.socks.get z

variable (pl) in
/-- Whether a vector is full or not, its elements have what they had, and the new one comes last. -/
lemma pushBack_spec (h : Linear s) {xs : List Nat} (hnodup : xs.Nodup)
    (hlive : ∀ x ∈ xs, ∃ a, s.socks.get x = some a) (hy : s.socks.get y = some b) (hyxs : y ∉ xs)
    (full : Bool) (junk : Nat → Socket) (names : Nat → NameAnswer) :
    Prog.wp (pushBack pl xs y full junk names)
      (fun ys t => Pushed xs y ys s t) (fun _ _ => False) (fun _ => False) s := by
  let j : Socket := { junk y with m_validFD := false }
  let u : World := { s with socks := (s.socks.push b).put y j }
  have hlinear : Linear u := linear_move h hy rfl
  have hget : ∀ z, u.socks.get z =
      if z = y then some j else if z = s.socks.next then some b else s.socks.get z := by
    intro z
    exact (Store.get_put (Store.get_push_of_some hy b) j z).trans (by rw [Store.get_push])
  have hsame : ∀ z ∈ xs, u.socks.get z = s.socks.get z := by
    intro z hz
    obtain ⟨c, hc⟩ := hlive z hz
    rw [hget, if_neg (ne_of_mem_of_not_mem hz hyxs), if_neg (Store.ne_next hc)]
  have hnew : u.socks.get s.socks.next = s.socks.get y := by
    rw [hget, if_neg (Store.ne_next hy).symm, if_pos rfl, hy]
  have hnotMem : s.socks.next ∉ xs := by
    intro hmem
    obtain ⟨c, hc⟩ := hlive _ hmem
    exact Store.ne_next hc rfl
  rw [pushBack, Prog.wp_bind, wp_moveConstruct hy]
  cases full with
  | false =>
    refine ⟨hlinear, rfl, ?_, ?_, ⟨j, (hget y).trans (if_pos rfl), rfl⟩, ?_⟩
    · rw [← List.concat_eq_append]
      exact hnodup.concat hnotMem
    · rw [List.map_append, List.map_append, List.map_congr_left hsame]
      exact congrArg (fun o => _ ++ [o]) hnew
    · intro z _ hzy hz
      exact (hget z).trans (by rw [if_neg hzy, if_neg hz.ne])
  | true =>
    have hlt : s.socks.next < u.socks.next := by simp [u]
    have hmove := moveAll_spec (s := u) hlinear junk hnodup fun z hz => by
      rw [hsame z hz]
      exact hlive z hz
    rw [if_pos rfl, Prog.wp_bind]
    refine Prog.wp_mono hmove (fun ys t hm => ?_) (fun _ _ h => h) (fun _ h => h)
    rw [Prog.wp_bind]
    refine Prog.wp_mono (destroyAll_spec hm.linear names hnodup hm.left) (fun _ w => ?_)
      (fun _ _ h => h) (fun _ h => h)
    rintro ⟨hw, hwt, hothers⟩
    have hrest : ∀ z, z ∉ xs → z < u.socks.next → w.socks.get z = u.socks.get z :=
      fun z hz hzlt => (hothers z hz).trans (hm.others z hz hzlt)
    refine ⟨hw, ?_, ?_, ?_, ⟨j, ?_, rfl⟩, ?_⟩
    · rw [hwt, hm.same]
    · rw [← List.concat_eq_append]
      refine hm.nodup.concat fun hmem => ?_
      have hle := hm.fresh _ hmem
      omega
    · have hys : ys.map w.socks.get = ys.map t.socks.get := by
        refine List.map_congr_left fun z hz => hothers z fun hmem => ?_
        have hle := hm.fresh z hz
        obtain ⟨c, hc⟩ := hlive z hmem
        have hltz := Store.lt_next hc
        omega
      have hlast : w.socks.get s.socks.next = s.socks.get y :=
        (hrest _ hnotMem hlt).trans hnew
      rw [List.map_append, List.map_append, hys, hm.elements, List.map_congr_left hsame]
      exact congrArg (fun o => _ ++ [o]) hlast
    · rw [hrest y hyxs (by have := Store.lt_next hy; omega), hget, if_pos rfl]
    · intro z hz hzy hzlt
      rw [hrest z hz (by omega), hget, if_neg hzy, if_neg hzlt.ne]

/-! ### Erasing -/

variable (pl) in
/-- The value ends up last and is destroyed there. -/
lemma eraseRemove_spec (h : Linear s) {xs : List Nat} (hnodup : xs.Nodup)
    (howners : ∀ x ∈ xs, ∃ v, s.socks.get x = some v ∧ v.m_validFD = true) (hvalue : value ∈ xs)
    (names : Nat → NameAnswer) :
    Prog.wp (eraseRemove pl value xs names)
      (fun kept u => ∃ last t, kept ++ [last] = xs ∧
        Rearranged xs (xs.erase value ++ [value]) s t ∧
        destroy pl last (names last) t = .ok () u)
      (fun _ _ => True) (fun _ => True) s := by
  rw [eraseRemove, Prog.wp_bind]
  refine Prog.wp_mono (remove_spec h hnodup howners hvalue) (fun r t => ?_) (fun _ _ _ => trivial)
    (fun _ _ => trivial)
  obtain ⟨kept, left⟩ := r
  rintro ⟨last, hkept, hleft, hr⟩
  obtain rfl : left = [last] := hleft
  rw [Prog.wp_bind, destroyAll, Prog.wp_bind]
  unfold Prog.wp
  cases hd : destroy pl last (names last) t with
  | ok _ u => exact ⟨last, t, hkept, hr, hd⟩
  | throw e u => trivial
  | fault k => trivial

end World

/-! ### Runs -/

/-- The vector and the handles that were pushed back: those that are still inside, in their order,
and those that have been erased. -/
def VectorOp.account (n : SocketVector) (p : List Handle × List Handle) :
    VectorOp → List Handle × List Handle
  | .program _ => p
  | .pushBack y _ _ _ =>
    match n.program.handles.object y with
    | some (some g) => (p.1 ++ [g], p.2)
    | _ => p
  | .erase value _ =>
    match n.program.handles.object value with
    | some (some g) => (p.1.erase g, g :: p.2)
    | _ => p

def VectorOp.accountedStep (pl : Platform) (p : SocketVector × List Handle × List Handle)
    (op : VectorOp) : Option (SocketVector × List Handle × List Handle) :=
  (op.step pl p.1).map fun m => (m, op.account p.1 p.2)

/-- The program leaves the elements where they are, pushes back objects that own a descriptor, and
erases elements. -/
def VectorOp.Proper (pl : Platform) (n : SocketVector) : VectorOp → Prop
  | .program op => UsesOwn n.program op ∧ ∀ x ∈ (op.meaning pl).operands, x ∉ n.elements
  | .pushBack y _ _ _ =>
    y ∉ n.elements ∧ (n.program.socks.get y).any Socket.m_validFD = true
  | .erase value _ => value ∈ n.elements

instance (n : SocketVector) (op : VectorOp) : Decidable (op.Proper pl n) :=
  match op with
  | .program _ => inferInstanceAs (Decidable (_ ∧ _))
  | .pushBack _ _ _ _ => inferInstanceAs (Decidable (_ ∧ _))
  | .erase value _ => inferInstanceAs (Decidable (value ∈ n.elements))

/-- A descriptor that is not open any more. -/
def Kernel.Shut (k : Kernel) (i : Nat) : Prop := ∃ d, k.descs.get i = some d ∧ d.isOpen = false

lemma Kernel.Grows.shut {k k' : Kernel} {i : Nat} (h : k.Grows k') (hi : k.Shut i) : k'.Shut i := by
  obtain ⟨d, hd, hc⟩ := hi
  exact h.closed i d hd hc

lemma Linear.shut_of_custody {s : World} (h : Linear s) {i : Nat}
    (hi : s.handles.custody i = some .closed) : s.kernel.Shut i := by
  obtain ⟨d, hd, hc⟩ := Option.map_eq_some_iff.mp hi
  cases h.fate i d hd with
  | owned _ _ hh hcl => simp [Descriptor.custody, hh, hcl] at hc
  | handedOver _ hh hcl => simp [Descriptor.custody, hh, hcl] at hc
  | closed hopen _ _ => exact ⟨d, hd, hopen⟩

/-- The invariant. -/
structure SocketVector.Holds (n : SocketVector) (p : List Handle × List Handle) : Prop where
  linear : Linear n.program
  nodup : n.elements.Nodup
  elements : n.elements.map n.program.handles.object = p.1.map fun g => some (some g)
  erased : ∀ g ∈ p.2, n.program.kernel.Shut g.desc

namespace SocketVector

variable {n m : SocketVector} {p : List Handle × List Handle}

lemma Holds.object (h : n.Holds p) {x : Nat} (hx : x ∈ n.elements) :
    ∃ g ∈ p.1, n.program.handles.object x = some (some g) := by
  have hmem := List.mem_map_of_mem (f := n.program.handles.object) hx
  rw [h.elements] at hmem
  obtain ⟨g, hg, hgx⟩ := List.mem_map.mp hmem
  exact ⟨g, hg, hgx.symm⟩

lemma Holds.owners (h : n.Holds p) :
    ∀ x ∈ n.elements, ∃ v, n.program.socks.get x = some v ∧ v.m_validFD = true := by
  intro x hx
  obtain ⟨g, -, hg⟩ := h.object hx
  obtain ⟨v, hv, hvalid, -⟩ := World.valid_of_object hg
  exact ⟨v, hv, hvalid⟩

lemma Holds.live (h : n.Holds p) : ∀ x ∈ n.elements, ∃ a, n.program.socks.get x = some a := by
  intro x hx
  obtain ⟨a, ha, -⟩ := h.owners x hx
  exact ⟨a, ha⟩

lemma Holds.program (h : n.Holds p) (hw : pl.LibraryWorks) {op : ProgramOp} {s : World}
    (hg : UsesOwn n.program op) (hspare : ∀ x ∈ (op.meaning pl).operands, x ∉ n.elements)
    (hs : op.step pl n.program = some s) : Holds { n with program := s } p := by
  have hstep := ProgramOp.step_handles hw h.linear hg.1 hg.2 hs
  have hgrows := ProgramOp.grows hs
  refine ⟨h.linear.step hg.1 hs, h.nodup, ?_, fun g hgp => hgrows.shut (h.erased g hgp)⟩
  rw [← h.elements]
  refine List.map_congr_left fun x hx => ?_
  obtain ⟨v, hv, -⟩ := h.owners x hx
  exact Handles.object_of_step hstep (fun hmem => hspare x hmem hx) (Store.lt_next hv)

lemma Holds.pushBack (h : n.Holds p) {y : Nat} {full : Bool} {junk : Nat → Socket}
    {names : Nat → NameAnswer} (hy : y ∉ n.elements) {v : Socket}
    (hv : n.program.socks.get y = some v) (hvalid : v.m_validFD = true)
    (hm : (VectorOp.pushBack y full junk names).step pl n = some m) :
    m.Holds ((VectorOp.pushBack y full junk names).account n p) := by
  obtain ⟨ys, t, hok, hp⟩ := Prog.exists_ok_of_wp
    (World.pushBack_spec pl (World.linear_start h.linear) h.nodup h.live hv hy full junk names)
  rw [VectorOp.step, hok] at hm
  cases hm
  have hdescs : t.kernel.descs = n.program.kernel.descs := by
    rw [hp.same]
    rfl
  have hgrows : n.program.kernel.Grows t.kernel := .of_same hdescs
  obtain ⟨i, d, -, -, -, -, -, -, hhandle⟩ := World.handle_of_valid h.linear hv hvalid
  have hobject := (World.object_of_get hv).trans (congrArg some hhandle)
  rw [VectorOp.account, hobject]
  refine ⟨hp.linear, hp.nodup, ?_, fun g hg => hgrows.shut (h.erased g hg)⟩
  have hobjects := World.objects_eq (s := n.program) hdescs hp.elements
  rw [hobjects, List.map_append, h.elements, List.map_append]
  exact congrArg (fun o => _ ++ [o]) hobject

/-- The handle of an element that is erased is the one at its place. -/
lemma Holds.erased_elements (h : n.Holds p) {value : Nat} (hvalue : value ∈ n.elements)
    {g : Handle} (hg : n.program.handles.object value = some (some g)) :
    (n.elements.erase value).map n.program.handles.object =
      (p.1.erase g).map fun g => some (some g) := by
  obtain ⟨before, after, hsplit⟩ := List.append_of_mem hvalue
  have helements := h.elements
  have hnodup := h.nodup
  rw [hsplit, List.map_append, List.map_cons, hg] at helements
  obtain ⟨first, rest, hfirst, hbefore, hrest⟩ := List.map_eq_append_iff.mp helements.symm
  obtain ⟨g', last, hlast, hg', hafter⟩ := List.map_eq_cons_iff.mp hrest
  cases hg'
  rw [hsplit] at hnodup
  obtain ⟨-, -, hdisjoint⟩ := List.nodup_append.mp hnodup
  have hvalueBefore : value ∉ before :=
    fun hmem => hdisjoint value hmem value List.mem_cons_self rfl
  have hgFirst : g ∉ first := by
    intro hmem
    have hmem := List.mem_map_of_mem (f := fun g => some (some g)) hmem
    rw [hbefore] at hmem
    obtain ⟨x, hx, hgx⟩ := List.mem_map.mp hmem
    obtain rfl := World.eq_of_object h.linear hgx hg rfl
    exact hvalueBefore hx
  rw [hsplit, hfirst, hlast, List.erase_append_right _ hvalueBefore, List.erase_cons_head,
    List.erase_append_right _ hgFirst, List.erase_cons_head, List.map_append, List.map_append,
    hbefore, hafter]

lemma Holds.erase (h : n.Holds p) {value : Nat} {names : Nat → NameAnswer}
    (hvalue : value ∈ n.elements) (hm : (VectorOp.erase value names).step pl n = some m) :
    m.Holds ((VectorOp.erase value names).account n p) := by
  obtain ⟨g, -, hg⟩ := h.object hvalue
  have hspec := World.eraseRemove_spec pl (World.linear_start h.linear) h.nodup h.owners hvalue
    names
  rw [VectorOp.step] at hm
  unfold Prog.wp at hspec
  cases hout : World.eraseRemove pl value n.elements names (SocketOp.start n.program) with
  | throw e u =>
    rw [hout] at hm
    cases hm
  | fault k =>
    rw [hout] at hm
    cases hm
  | ok kept u =>
    rw [hout] at hspec hm
    cases hm
    obtain ⟨last, t, hkept, hr, hdestroy⟩ := hspec
    have hstart : SocketOp.start t = t := by
      rw [hr.same]
      rfl
    have hstep : SocketOp.step pl t (.destroy last (names last)) = some u := by
      rw [SocketOp.step, hstart, SocketOp.exec, hdestroy]
      rfl
    have hdescs : t.kernel.descs = n.program.kernel.descs := by
      rw [hr.same]
      rfl
    have hobjects := World.objects_eq (s := n.program) hdescs hr.elements
    have hnodup := h.nodup
    rw [← hkept, List.map_append, List.map_append] at hobjects
    rw [← hkept] at hnodup
    obtain ⟨hkeptObjects, hlast⟩ := List.append_inj' hobjects rfl
    have hlast : t.handles.object last = some (some g) :=
      (List.cons.inj hlast).1.trans hg
    have hmeaning := SocketOp.destroy_handles hr.linear hstep
    have hshut : u.handles.custody g.desc = some .closed := by
      have hpart := hmeaning
      rw [HandleOp.step, hlast] at hpart
      rw [← Option.some.inj hpart, Handles.custody_part, if_pos rfl]
    have hprogram : ProgramOp.step pl t (.library (.destroy last (names last))) = some u := hstep
    have hfree : ReleasesOwn t (.library (.destroy last (names last))) := trivial
    have hlinear := hr.linear.step hfree hprogram
    have hgrows : n.program.kernel.Grows u.kernel :=
      (Kernel.Grows.of_same hdescs).trans (ProgramOp.grows hprogram)
    obtain ⟨hkeptNodup, -, hdisjoint⟩ := List.nodup_append.mp hnodup
    rw [VectorOp.account, hg]
    refine ⟨hlinear, hkeptNodup, ?_, ?_⟩
    · rw [← h.erased_elements hvalue hg, ← hkept, ← hkeptObjects]
      refine List.map_congr_left fun x hx => ?_
      have hne : x ≠ last := hdisjoint x hx last (List.mem_singleton_self last)
      obtain ⟨v, hv, -⟩ := h.owners x (hkept ▸ List.mem_append_left [last] hx)
      have hlt : x < t.handles.next := by
        change x < t.socks.next
        rw [hr.next]
        exact Store.lt_next hv
      exact Handles.object_of_step hmeaning (fun hmem => hne (List.mem_singleton.mp hmem)) hlt
    · intro k hk
      rcases List.mem_cons.mp hk with rfl | hk
      · exact hlinear.shut_of_custody hshut
      · exact hgrows.shut (h.erased k hk)

lemma holds_initial (autoInitialize : Bool) (files : List (List UInt8)) :
    Holds ⟨World.initial autoInitialize files, []⟩ ([], []) := by
  refine ⟨Linear.initial autoInitialize files, List.nodup_nil, rfl, ?_⟩
  intro g hg
  cases hg

lemma Holds.step (h : n.Holds p) (hw : pl.LibraryWorks) {op : VectorOp} (hop : op.Proper pl n)
    (hm : op.step pl n = some m) : m.Holds (op.account n p) := by
  cases op with
  | program op =>
    obtain ⟨s, hs, rfl⟩ := Option.map_eq_some_iff.mp hm
    exact h.program hw hop.1 hop.2 hs
  | pushBack y full junk names =>
    obtain ⟨hy, hvalid⟩ := hop
    obtain ⟨v, hv, hvalid⟩ := (Option.any_eq_true ..).mp hvalid
    exact h.pushBack hy hv hvalid hm
  | erase value names => exact h.erase hop hm

variable (pl) in
/-- The elements own, in their order, what was pushed back and has not been erased; what has been
erased is closed. An element can always be removed, and an owner pushed back. -/
structure Contains (n : SocketVector) (p : List Handle × List Handle) : Prop where
  elements : n.elements.map n.program.descriptor = p.1.map fun g => some g.desc
  owners : ∀ x ∈ n.elements, ∃ v, n.program.socks.get x = some v ∧ v.m_validFD = true
  distinct : (p.1.map Handle.desc).Nodup
  isOpen : ∀ g ∈ p.1, n.program.kernel.isOpen g.desc = true
  erased : ∀ g ∈ p.2, n.program.kernel.Shut g.desc
  removes : ∀ value ∈ n.elements, ∃ kept last t,
    World.remove value n.elements (SocketOp.start n.program) = .ok (kept, [last]) t ∧
    kept ++ [last] = n.elements ∧ t.socks.get last = n.program.socks.get value
  pushes : ∀ y full junk names, VectorOp.Proper pl n (.pushBack y full junk names) →
    ∃ m, VectorOp.step pl n (.pushBack y full junk names) = some m

lemma descriptor_of_object (h : Linear n.program) {x : Nat} {g : Handle}
    (hg : n.program.handles.object x = some (some g)) :
    n.program.descriptor x = some g.desc ∧ n.program.kernel.isOpen g.desc = true := by
  obtain ⟨v, -, -, -, -, hdesc, hopen⟩ := h.shows.holds x g hg
  exact ⟨hdesc, hopen⟩

lemma Holds.descriptors (h : n.Holds p) :
    n.elements.map n.program.descriptor = p.1.map fun g => some g.desc := by
  have hdesc : ∀ x ∈ n.elements, n.program.descriptor x =
      (n.program.handles.object x).bind fun o => o.map Handle.desc := by
    intro x hx
    obtain ⟨g, -, hg⟩ := h.object hx
    rw [(descriptor_of_object h.linear hg).1, hg]
    rfl
  rw [List.map_congr_left hdesc]
  have hmap := congrArg (List.map fun o => o.bind fun o => o.map Handle.desc) h.elements
  rw [List.map_map, List.map_map] at hmap
  exact hmap

lemma Holds.contains (h : n.Holds p) : n.Contains pl p where
  elements := h.descriptors
  owners := h.owners
  distinct := by
    have hnodup : (n.elements.map n.program.descriptor).Nodup := by
      refine h.nodup.map_on fun x hx y hy heq => ?_
      obtain ⟨g, -, hg⟩ := h.object hx
      obtain ⟨k, -, hk⟩ := h.object hy
      rw [(descriptor_of_object h.linear hg).1, (descriptor_of_object h.linear hk).1] at heq
      exact World.eq_of_object h.linear hg hk (Option.some.inj heq)
    rw [h.descriptors] at hnodup
    refine List.Nodup.of_map some ?_
    rw [List.map_map]
    exact hnodup
  isOpen g hg := by
    have hmem := List.mem_map_of_mem (f := fun g => some (some g)) hg
    rw [← h.elements] at hmem
    obtain ⟨x, -, hx⟩ := List.mem_map.mp hmem
    exact (descriptor_of_object h.linear hx).2
  erased := h.erased
  removes value hvalue := by
    obtain ⟨⟨kept, left⟩, t, hok, last, hkept, hleft, hr⟩ := Prog.exists_ok_of_wp
      (World.remove_spec (World.linear_start h.linear) h.nodup h.owners hvalue)
    obtain rfl : left = [last] := hleft
    refine ⟨kept, last, t, hok, hkept, ?_⟩
    have helements := hr.elements
    rw [← hkept, List.map_append, List.map_append] at helements
    exact (List.cons.inj (List.append_inj' helements rfl).2).1
  pushes y full junk names hop := by
    obtain ⟨hy, hvalid⟩ := hop
    obtain ⟨v, hv, -⟩ := (Option.any_eq_true ..).mp hvalid
    obtain ⟨ys, t, hok, -⟩ := Prog.exists_ok_of_wp
      (World.pushBack_spec pl (World.linear_start h.linear) h.nodup h.live hv hy full junk names)
    rw [VectorOp.step, hok]
    exact ⟨_, rfl⟩

end SocketVector

/-- However a vector of sockets grows, moves and shrinks, and whatever else the program does, its
elements own what was pushed back and has not been erased. -/
theorem vectors_contain_what_is_pushed (pl : Platform) (hw : pl.LibraryWorks)
    (autoInitialize : Bool) (files : List (List UInt8)) (ops : List VectorOp)
    (hg : Guarded (VectorOp.accountedStep pl) (fun p op => op.Proper pl p.1)
      (⟨World.initial autoInitialize files, []⟩, [], []) ops) :
    Along (VectorOp.accountedStep pl) (fun p => p.1.Contains pl p.2)
      (⟨World.initial autoInitialize files, []⟩, [], []) ops := by
  refine (along_of_guarded (I := fun p => p.1.Holds p.2) ?_
    (SocketVector.holds_initial autoInitialize files) hg).mono fun p h => h.contains
  intro p op p' h hop hs
  obtain ⟨m, hm, rfl⟩ := Option.map_eq_some_iff.mp hs
  exact h.step hw hop hm

/-- A listener gets three clients, and the first of them goes. -/
def clientsComeAndGo : List VectorOp :=
  let junk : Nat → Socket := fun _ => ⟨true, 9, 2, 1, 0⟩
  let names : Nat → NameAnswer := fun _ => unboundName
  [.program (.library (.create 1 1 0 (.ok 3))),
    .program (.library (.accept 0 (.ok 4))), .pushBack 1 true junk names,
    .program (.library (.accept 0 (.ok 5))), .pushBack 3 true junk names,
    .program (.library (.accept 0 (.ok 6))), .pushBack 6 false junk names,
    .erase 5 names]

theorem vectors_contain_what_is_pushed_linux :
    Along (VectorOp.accountedStep linuxHost) (fun p => p.1.Contains linuxHost p.2)
      (⟨World.initial true [], []⟩, [], []) clientsComeAndGo :=
  vectors_contain_what_is_pushed linuxHost (libraryWorks_numericHost false false true) true []
    clientsComeAndGo (by decide +kernel)

example : (run (VectorOp.accountedStep linuxHost) (⟨World.initial true [], []⟩, [], [])
    clientsComeAndGo).map (fun p => (p.1.elements, p.2.1.map Handle.desc, p.2.2.map Handle.desc)) =
    some ([5, 4], [2, 3], [1]) := by
  decide +kernel

end SockLib
