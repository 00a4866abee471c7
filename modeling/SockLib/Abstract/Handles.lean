import Mathlib.Logic.Equiv.Basic
import SockLib.Foundation.Runs

/-!
# Sockets as handles

What `sks::socket` is for. An object holds a descriptor, or nothing. A descriptor is held by one
object, or has been handed over to the caller, or has been closed. There are no numbers here
that the kernel gives a second time, and nothing is left over in an object that has been moved
from.
-/

namespace SockLib

/-- A descriptor and what it was made for. -/
structure Handle where
  desc : Nat
  domain : Nat
  type : Int
  protocol : Int
deriving DecidableEq

inductive Custody where
  | held | handed | closed
deriving DecidableEq

/-- Objects from `next` on and descriptors from `descs` on have not been made yet. -/
@[ext] structure Handles where
  next : Nat
  object : Nat → Option (Option Handle)
  descs : Nat
  custody : Nat → Option Custody

inductive HandleOp where
  | skip
  | make (domain : Nat) (type protocol : Int)
  | accept (x : Nat)
  | pair (domain : Nat) (type protocol : Int)
  | move (y : Nat)
  | moveAssign (x y : Nat)
  | swap (x y : Nat)
  | release (x : Nat)
  | destroy (x : Nat)
  | use (x : Nat)

namespace Handles

def empty : Handles := ⟨0, fun _ => none, 0, fun _ => none⟩

/-- A new object holds a new descriptor. -/
def hold (t : Handles) (x domain : Nat) (type protocol : Int) : Handles where
  next := x + 1
  object := Function.update t.object x (some (some ⟨t.descs, domain, type, protocol⟩))
  descs := t.descs + 1
  custody := Function.update t.custody t.descs (some .held)

def exchange (t : Handles) (x y : Nat) (a b : Option Handle) : Handles :=
  { t with object := Function.update (Function.update t.object x (some b)) y (some a) }

/-- An object parts with its descriptor. -/
def part (t : Handles) (x : Nat) (g : Handle) (left : Option (Option Handle)) (c : Custody) :
    Handles :=
  { t with
    object := Function.update t.object x left
    custody := Function.update t.custody g.desc (some c) }

end Handles

namespace HandleOp

/-- The handles after an operation. There are none where an object does not exist, and where one
that holds nothing is asked to accept. -/
def step (t : Handles) : HandleOp → Option Handles
  | .skip => some t
  | .make domain type protocol => some (t.hold t.next domain type protocol)
  | .accept x =>
    match t.object x with
    | some (some g) => some (t.hold t.next g.domain g.type g.protocol)
    | _ => none
  -- The first two objects are temporaries that have gone by now.
  | .pair domain type protocol =>
    some ((t.hold (t.next + 2) domain type protocol).hold (t.next + 3) domain type protocol)
  | .move y => (t.object y).map fun a =>
    { t with
      next := t.next + 1
      object := Function.update (Function.update t.object t.next (some a)) y (some none) }
  | .moveAssign x y =>
    match t.object x, t.object y with
    | some a, some b => some (t.exchange x y a b)
    | _, _ => none
  | .swap x y =>
    match t.object x, t.object y with
    | some a, some b => some { t.exchange x y a b with next := t.next + 1 }
    | _, _ => none
  | .release x =>
    match t.object x with
    | some (some g) => some (t.part x g (some none) .handed)
    | some none => some t
    | none => none
  | .destroy x =>
    match t.object x with
    | some (some g) => some (t.part x g none .closed)
    | some none => some { t with object := Function.update t.object x none }
    | none => none
  | .use x => (t.object x).map fun _ => t

/-- The objects an operation takes a handle from. -/
def operands : HandleOp → List Nat
  | .move y => [y]
  | .moveAssign x y => [x, y]
  | .swap x y => [x, y]
  | .release x => [x]
  | .destroy x => [x]
  | _ => []

end HandleOp

namespace Handles

/-- Objects and the descriptors that are held belong to each other one to one. -/
structure OneToOne (t : Handles) : Prop where
  unmade : ∀ x, t.next ≤ x → t.object x = none
  unopened : ∀ i, t.descs ≤ i → t.custody i = none
  held : ∀ x g, t.object x = some (some g) → t.custody g.desc = some .held
  sole : ∀ x y g h, t.object x = some (some g) → t.object y = some (some h) →
    g.desc = h.desc → x = y
  holder : ∀ i, t.custody i = some .held → ∃ x g, t.object x = some (some g) ∧ g.desc = i

variable {t t' : Handles} {x y : Nat}

lemma object_hold (domain : Nat) (type protocol : Int) (z : Nat) :
    (t.hold x domain type protocol).object z =
      if z = x then some (some ⟨t.descs, domain, type, protocol⟩) else t.object z :=
  Function.update_apply t.object x _ z

lemma custody_hold (domain : Nat) (type protocol : Int) (i : Nat) :
    (t.hold x domain type protocol).custody i =
      if i = t.descs then some .held else t.custody i :=
  Function.update_apply t.custody t.descs _ i

lemma object_part (g : Handle) (left : Option (Option Handle)) (c : Custody) (z : Nat) :
    (t.part x g left c).object z = if z = x then left else t.object z :=
  Function.update_apply t.object x _ z

lemma custody_part (g : Handle) (left : Option (Option Handle)) (c : Custody) (i : Nat) :
    (t.part x g left c).custody i = if i = g.desc then some c else t.custody i :=
  Function.update_apply t.custody g.desc _ i

lemma oneToOne_empty : empty.OneToOne := by
  refine ⟨fun _ _ => rfl, fun _ _ => rfl, ?_, ?_, ?_⟩
  · intro x g h
    cases h
  · intro x y g h hx
    cases hx
  · intro i h
    cases h

namespace OneToOne

lemma lt_descs (h : t.OneToOne) {g : Handle} (hx : t.object x = some (some g)) :
    g.desc < t.descs := by
  by_contra hle
  have hnone := h.unopened g.desc (Nat.le_of_not_lt hle)
  rw [h.held x g hx] at hnone
  cases hnone

lemma lt_next (h : t.OneToOne) {a : Option Handle} (hx : t.object x = some a) : x < t.next := by
  by_contra hle
  rw [h.unmade x (Nat.le_of_not_lt hle)] at hx
  cases hx

lemma hold (h : t.OneToOne) (hle : t.next ≤ x) (domain : Nat) (type protocol : Int) :
    (t.hold x domain type protocol).OneToOne := by
  have hobject : ∀ z g, (t.hold x domain type protocol).object z = some (some g) →
      z = x ∧ g.desc = t.descs ∨ t.object z = some (some g) := by
    intro z g hz
    rw [object_hold] at hz
    split at hz
    · next hzx =>
      cases hz
      exact Or.inl ⟨hzx, rfl⟩
    · exact Or.inr hz
  refine ⟨fun z hz => ?_, fun i hi => ?_, fun z g hz => ?_, fun z z' g g' hz hz' heq => ?_,
    fun i hi => ?_⟩
  · have hlt : x < z := hz
    rw [object_hold, if_neg (by omega)]
    exact h.unmade z (by omega)
  · have hlt : t.descs < i := hi
    rw [custody_hold, if_neg (by omega)]
    exact h.unopened i (by omega)
  · rw [custody_hold]
    rcases hobject z g hz with ⟨-, hg⟩ | hz
    · rw [if_pos hg]
    · have hlt := h.lt_descs hz
      rw [if_neg (by omega)]
      exact h.held z g hz
  · rcases hobject z g hz with ⟨hzx, hg⟩ | hz
    · rcases hobject z' g' hz' with ⟨hzx', -⟩ | hz'
      · rw [hzx, hzx']
      · have hlt := h.lt_descs hz'
        omega
    · rcases hobject z' g' hz' with ⟨-, hg'⟩ | hz'
      · have hlt := h.lt_descs hz
        omega
      · exact h.sole z z' g g' hz hz' heq
  · rw [custody_hold] at hi
    split at hi
    · next hid =>
      refine ⟨x, ⟨t.descs, domain, type, protocol⟩, ?_, hid.symm⟩
      rw [object_hold, if_pos rfl]
    · obtain ⟨z, g, hz, hg⟩ := h.holder i hi
      have hlt := h.lt_next hz
      refine ⟨z, g, ?_, hg⟩
      rw [object_hold, if_neg (by omega)]
      exact hz

/-- The objects have changed their places. -/
lemma permute (h : t.OneToOne) (p : Equiv.Perm Nat)
    (hunmade : ∀ z, t'.next ≤ z → t'.object z = none)
    (hobject : ∀ z g, t'.object z = some (some g) ↔ t.object (p z) = some (some g))
    (hdescs : t'.descs = t.descs) (hcustody : t'.custody = t.custody) : t'.OneToOne := by
  refine ⟨hunmade, fun i hi => ?_, fun z g hz => ?_, fun z z' g g' hz hz' heq => ?_,
    fun i hi => ?_⟩
  · rw [hcustody]
    exact h.unopened i (hdescs ▸ hi)
  · rw [hcustody]
    exact h.held (p z) g ((hobject z g).mp hz)
  · exact p.injective (h.sole _ _ g g' ((hobject z g).mp hz) ((hobject z' g').mp hz') heq)
  · rw [hcustody] at hi
    obtain ⟨z, g, hz, hg⟩ := h.holder i hi
    refine ⟨p.symm z, g, (hobject _ g).mpr ?_, hg⟩
    rwa [Equiv.apply_symm_apply]

lemma exchange (h : t.OneToOne) {a b : Option Handle} (hx : t.object x = some a)
    (hy : t.object y = some b) {n : Nat} (hn : t.next ≤ n) :
    OneToOne { t.exchange x y a b with next := n } := by
  have hobject : ∀ z, Function.update (Function.update t.object x (some b)) y (some a) z =
      t.object (Equiv.swap x y z) := by
    intro z
    rcases eq_or_ne z y with rfl | hzy
    · rw [Function.update_self, Equiv.swap_apply_right, hx]
    · rw [Function.update_of_ne hzy]
      rcases eq_or_ne z x with rfl | hzx
      · rw [Function.update_self, Equiv.swap_apply_left, hy]
      · rw [Function.update_of_ne hzx, Equiv.swap_apply_of_ne_of_ne hzx hzy]
  have hltx := h.lt_next hx
  have hlty := h.lt_next hy
  refine h.permute (Equiv.swap x y) (fun z hz => ?_) (fun z g => ?_) rfl rfl
  · have hle : n ≤ z := hz
    refine (hobject z).trans ?_
    rw [Equiv.swap_apply_of_ne_of_ne (by omega) (by omega)]
    exact h.unmade z (by omega)
  · rw [← hobject]
    rfl

lemma move (h : t.OneToOne) {a : Option Handle} (hy : t.object y = some a) :
    OneToOne { t with
      next := t.next + 1
      object := Function.update (Function.update t.object t.next (some a)) y (some none) } := by
  have hlt := h.lt_next hy
  refine h.permute (Equiv.swap t.next y) (fun z hz => ?_) (fun z g => ?_) rfl rfl
  · have hle : t.next + 1 ≤ z := hz
    change Function.update (Function.update t.object t.next (some a)) y (some none) z = none
    rw [Function.update_of_ne (by omega), Function.update_of_ne (by omega)]
    exact h.unmade z (by omega)
  · change Function.update (Function.update t.object t.next (some a)) y (some none) z = _ ↔ _
    rcases eq_or_ne z y with rfl | hzy
    · rw [Function.update_self, Equiv.swap_apply_right, h.unmade t.next (Nat.le_refl _)]
      simp
    · rw [Function.update_of_ne hzy]
      rcases eq_or_ne z t.next with rfl | hzn
      · rw [Function.update_self, Equiv.swap_apply_left, hy]
      · rw [Function.update_of_ne hzn, Equiv.swap_apply_of_ne_of_ne hzn hzy]

lemma part (h : t.OneToOne) {g : Handle} (hx : t.object x = some (some g))
    {left : Option (Option Handle)} (hleft : ∀ k, left ≠ some (some k)) {c : Custody}
    (hc : c ≠ .held) : (t.part x g left c).OneToOne := by
  have hobject : ∀ z k, (t.part x g left c).object z = some (some k) →
      z ≠ x ∧ t.object z = some (some k) := by
    intro z k hz
    rw [object_part] at hz
    split at hz
    · exact absurd hz (hleft k)
    · next hzx => exact ⟨hzx, hz⟩
  have hlt := h.lt_next hx
  have hltd := h.lt_descs hx
  refine ⟨fun z hz => ?_, fun i hi => ?_, fun z k hz => ?_, fun z z' k k' hz hz' heq => ?_,
    fun i hi => ?_⟩
  · have hle : t.next ≤ z := hz
    rw [object_part, if_neg (by omega)]
    exact h.unmade z hle
  · have hle : t.descs ≤ i := hi
    rw [custody_part, if_neg (by omega)]
    exact h.unopened i hle
  · obtain ⟨hne, hz⟩ := hobject z k hz
    rw [custody_part, if_neg fun heq => hne (h.sole z x k g hz hx heq)]
    exact h.held z k hz
  · exact h.sole z z' k k' (hobject z k hz).2 (hobject z' k' hz').2 heq
  · rw [custody_part] at hi
    split at hi
    · exact absurd (Option.some.inj hi) hc
    · next hid =>
      obtain ⟨z, k, hz, hk⟩ := h.holder i hi
      refine ⟨z, k, ?_, hk⟩
      rw [object_part, if_neg]
      · exact hz
      · rintro rfl
        rw [hx] at hz
        cases hz
        exact hid hk.symm

lemma forget (h : t.OneToOne) (hx : t.object x = some none) :
    OneToOne { t with object := Function.update t.object x none } := by
  have hlt := h.lt_next hx
  refine h.permute (Equiv.refl Nat) (fun z hz => ?_) (fun z g => ?_) rfl rfl
  · have hle : t.next ≤ z := hz
    change Function.update t.object x none z = none
    rw [Function.update_of_ne (by omega)]
    exact h.unmade z hle
  · change Function.update t.object x none z = _ ↔ t.object z = _
    rcases eq_or_ne z x with rfl | hzx
    · rw [Function.update_self, hx]
      simp
    · rw [Function.update_of_ne hzx]

lemma step (h : t.OneToOne) {op : HandleOp} (hs : HandleOp.step t op = some t') :
    t'.OneToOne := by
  cases op with
  | skip =>
    cases hs
    exact h
  | make domain type protocol =>
    cases hs
    exact h.hold (Nat.le_refl _) domain type protocol
  | accept x =>
    rw [HandleOp.step] at hs
    split at hs
    · cases hs
      exact h.hold (Nat.le_refl _) _ _ _
    · cases hs
  | pair domain type protocol =>
    cases hs
    exact (h.hold (Nat.le_add_right t.next 2) domain type protocol).hold (Nat.le_refl _) _ _ _
  | move y =>
    obtain ⟨a, hy, rfl⟩ := Option.map_eq_some_iff.mp hs
    exact h.move hy
  | moveAssign x y =>
    rw [HandleOp.step] at hs
    split at hs
    · next hx hy =>
      cases hs
      exact h.exchange hx hy (Nat.le_refl _)
    · cases hs
  | swap x y =>
    rw [HandleOp.step] at hs
    split at hs
    · next hx hy =>
      cases hs
      exact h.exchange hx hy (Nat.le_succ t.next)
    · cases hs
  | release x =>
    rw [HandleOp.step] at hs
    split at hs
    · next hx =>
      cases hs
      exact h.part hx (fun k hk => by cases hk) (fun hc => by cases hc)
    · cases hs
      exact h
    · cases hs
  | destroy x =>
    rw [HandleOp.step] at hs
    split at hs
    · next hx =>
      cases hs
      exact h.part hx (fun k hk => by cases hk) (fun hc => by cases hc)
    · next hx =>
      cases hs
      exact h.forget hx
    · cases hs
  | use x =>
    obtain ⟨a, -, rfl⟩ := Option.map_eq_some_iff.mp hs
    exact h

end OneToOne

/-- Whatever is done with handles, no descriptor gets a second holder, and none is lost. -/
theorem oneToOne_of_run {ops : List HandleOp} (h : run HandleOp.step empty ops = some t) :
    t.OneToOne := by
  have hall : Along HandleOp.step OneToOne empty ops :=
    along_of_guarded (G := fun _ _ => True) (fun _ _ _ ht _ hs => ht.step hs) oneToOne_empty
      (guarded_of_forall fun _ _ _ => trivial)
  exact hall.last h

/-! ### What stays -/

variable {op : HandleOp} {z : Nat}

lemma object_hold_of_lt (domain : Nat) (type protocol : Int) (hlt : z < x) :
    (t.hold x domain type protocol).object z = t.object z := by
  rw [object_hold, if_neg (by omega)]

lemma object_exchange (a b : Option Handle) (z : Nat) :
    (t.exchange x y a b).object z =
      if z = y then some a else if z = x then some b else t.object z := by
  change Function.update (Function.update t.object x (some b)) y (some a) z = _
  rw [Function.update_apply, Function.update_apply]

/-- Other objects keep what they hold. -/
lemma object_of_step (hs : HandleOp.step t op = some t') (hz : z ∉ op.operands)
    (hlt : z < t.next) : t'.object z = t.object z := by
  cases op with
  | skip =>
    cases hs
    rfl
  | make domain type protocol =>
    cases hs
    exact object_hold_of_lt domain type protocol hlt
  | accept x =>
    rw [HandleOp.step] at hs
    split at hs
    · cases hs
      exact object_hold_of_lt _ _ _ hlt
    · cases hs
  | pair domain type protocol =>
    cases hs
    rw [object_hold_of_lt _ _ _ (by omega), object_hold_of_lt _ _ _ (by omega)]
  | move y =>
    obtain ⟨a, hy, rfl⟩ := Option.map_eq_some_iff.mp hs
    have hzy : z ≠ y := fun h => hz (List.mem_singleton.mpr h)
    exact (Function.update_of_ne hzy _ _).trans (Function.update_of_ne (Nat.ne_of_lt hlt) _ _)
  | moveAssign x y =>
    simp only [HandleOp.operands, List.mem_cons, List.not_mem_nil, or_false, not_or] at hz
    rw [HandleOp.step] at hs
    split at hs
    · cases hs
      rw [object_exchange, if_neg hz.2, if_neg hz.1]
    · cases hs
  | swap x y =>
    simp only [HandleOp.operands, List.mem_cons, List.not_mem_nil, or_false, not_or] at hz
    rw [HandleOp.step] at hs
    split at hs
    · cases hs
      exact (object_exchange _ _ z).trans (by rw [if_neg hz.2, if_neg hz.1])
    · cases hs
  | release x =>
    have hzx : z ≠ x := fun h => hz (List.mem_singleton.mpr h)
    rw [HandleOp.step] at hs
    split at hs
    · cases hs
      rw [object_part, if_neg hzx]
    · cases hs
      rfl
    · cases hs
  | destroy x =>
    have hzx : z ≠ x := fun h => hz (List.mem_singleton.mpr h)
    rw [HandleOp.step] at hs
    split at hs
    · cases hs
      rw [object_part, if_neg hzx]
    · cases hs
      exact Function.update_of_ne hzx _ _
    · cases hs
  | use x =>
    obtain ⟨a, -, rfl⟩ := Option.map_eq_some_iff.mp hs
    rfl

end Handles

end SockLib
