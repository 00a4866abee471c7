import Mathlib.Tactic.Common

/-!
# Programs that return, throw or have undefined behaviour

`Prog φ ε σ α` is a computation over a state `σ` that ends in one of three ways: it
returns an `α`, it throws an `ε` (and the state changes made so far stay), or it runs
into a fault `φ`, after which nothing can be said about the state. `Prog.wp` is the
weakest precondition with one postcondition for each ending. The rules below compute it
for every construct, so a program is verified by rewriting with them.
-/

namespace SockLib

/-- The three ways a computation ends. -/
inductive Outcome (φ ε σ α : Type) where
  | ok (value : α) (state : σ)
  | throw (exn : ε) (state : σ)
  | fault (kind : φ)

/-- The state a caller goes on from: an exception may be caught there, a fault ends the run. -/
def Outcome.resume {φ ε σ α : Type} : Outcome φ ε σ α → Option σ
  | .ok _ s => some s
  | .throw _ s => some s
  | .fault _ => none

/-- The state in which an exception is thrown. -/
def Outcome.thrown {φ ε σ α : Type} : Outcome φ ε σ α → Option σ
  | .throw _ s => some s
  | _ => none

/-- How a computation ends, without the state it leaves. -/
def Outcome.answer {φ ε σ α : Type} : Outcome φ ε σ α → Outcome φ ε Unit α
  | .ok a _ => .ok a ()
  | .throw e _ => .throw e ()
  | .fault k => .fault k

def Prog (φ ε σ α : Type) := σ → Outcome φ ε σ α

namespace Prog

variable {φ ε σ τ α β : Type}

def ret (a : α) : Prog φ ε σ α := fun s => .ok a s

def andThen (m : Prog φ ε σ α) (f : α → Prog φ ε σ β) : Prog φ ε σ β := fun s =>
  match m s with
  | .ok a s' => f a s'
  | .throw e s' => .throw e s'
  | .fault k => .fault k

instance : Monad (Prog φ ε σ) where
  pure := ret
  bind := andThen

def gets (f : σ → α) : Prog φ ε σ α := fun s => .ok (f s) s

def modify (f : σ → σ) : Prog φ ε σ Unit := fun s => .ok () (f s)

def raise (e : ε) : Prog φ ε σ α := fun s => .throw e s

def undefined (k : φ) : Prog φ ε σ α := fun _ => .fault k

/-- Return what an optional value holds; its absence is undefined behaviour. -/
def demand (o : Option α) (k : φ) : Prog φ ε σ α :=
  match o with
  | some a => ret a
  | none => undefined k

/-- Return or throw as a pure computation does. -/
def ofExcept (r : Except ε α) : Prog φ ε σ α :=
  match r with
  | .ok a => ret a
  | .error e => raise e

def tryCatch (m : Prog φ ε σ α) (h : ε → Prog φ ε σ α) : Prog φ ε σ α := fun s =>
  match m s with
  | .ok a s' => .ok a s'
  | .throw e s' => h e s'
  | .fault k => .fault k

/-- Clean up at the end of a scope, whether it is left by a return or by an exception. -/
def ensuring (m : Prog φ ε σ α) (cleanup : Prog φ ε σ Unit) : Prog φ ε σ α := do
  let a ← tryCatch m fun e => do
    cleanup
    raise e
  cleanup
  pure a

/-- Run a program on a part of a larger state; the rest of the state stays as it is. -/
def zoom (get : τ → σ) (put : σ → τ → τ) (m : Prog φ ε σ α) : Prog φ ε τ α := fun t =>
  match m (get t) with
  | .ok a s => .ok a (put s t)
  | .throw e s => .throw e (put s t)
  | .fault k => .fault k

/-- The weakest precondition: `Q` after a return, `E` after a throw, `F` of a fault. -/
def wp (m : Prog φ ε σ α) (Q : α → σ → Prop) (E : ε → σ → Prop) (F : φ → Prop) (s : σ) : Prop :=
  match m s with
  | .ok a s' => Q a s'
  | .throw e s' => E e s'
  | .fault k => F k

section Rules

variable {Q : α → σ → Prop} {E : ε → σ → Prop} {F : φ → Prop} {s : σ}

@[simp] lemma wp_pure (a : α) : wp (pure a : Prog φ ε σ α) Q E F s ↔ Q a s := Iff.rfl

@[simp] lemma wp_ret (a : α) : wp (ret a : Prog φ ε σ α) Q E F s ↔ Q a s := Iff.rfl

@[simp] lemma wp_bind (m : Prog φ ε σ β) (f : β → Prog φ ε σ α) :
    wp (m >>= f) Q E F s ↔ wp m (fun b s' => wp (f b) Q E F s') E F s := by
  change wp (andThen m f) Q E F s ↔ _
  unfold wp andThen
  cases m s <;> rfl

@[simp] lemma wp_gets (f : σ → α) : wp (gets f : Prog φ ε σ α) Q E F s ↔ Q (f s) s := Iff.rfl

@[simp] lemma wp_modify (f : σ → σ) {Q : Unit → σ → Prop} :
    wp (modify f : Prog φ ε σ Unit) Q E F s ↔ Q () (f s) := Iff.rfl

@[simp] lemma wp_raise (e : ε) : wp (raise e : Prog φ ε σ α) Q E F s ↔ E e s := Iff.rfl

@[simp] lemma wp_undefined (k : φ) : wp (undefined k : Prog φ ε σ α) Q E F s ↔ F k := Iff.rfl

@[simp] lemma wp_demand_some (a : α) (k : φ) :
    wp (demand (some a) k : Prog φ ε σ α) Q E F s ↔ Q a s := Iff.rfl

@[simp] lemma wp_demand_none (k : φ) :
    wp (demand none k : Prog φ ε σ α) Q E F s ↔ F k := Iff.rfl

lemma wp_demand {o : Option α} {k : φ} :
    wp (demand o k : Prog φ ε σ α) Q E F s ↔ (∀ a, o = some a → Q a s) ∧ (o = none → F k) := by
  cases o <;> simp

@[simp] lemma wp_ofExcept_ok (a : α) :
    wp (ofExcept (.ok a) : Prog φ ε σ α) Q E F s ↔ Q a s := Iff.rfl

@[simp] lemma wp_ofExcept_error (e : ε) :
    wp (ofExcept (.error e) : Prog φ ε σ α) Q E F s ↔ E e s := Iff.rfl

@[simp] lemma wp_tryCatch (m : Prog φ ε σ α) (h : ε → Prog φ ε σ α) :
    wp (tryCatch m h) Q E F s ↔ wp m Q (fun e s' => wp (h e) Q E F s') F s := by
  unfold wp tryCatch
  cases m s <;> rfl

lemma wp_ensuring (m : Prog φ ε σ α) (cleanup : Prog φ ε σ Unit) :
    wp (ensuring m cleanup) Q E F s ↔
      wp m (fun a s' => wp cleanup (fun _ t => Q a t) E F s')
        (fun e s' => wp cleanup (fun _ t => E e t) E F s') F s := by
  rw [ensuring, wp_bind, wp_tryCatch]
  simp only [wp_bind, wp_raise, wp_pure]

@[simp] lemma wp_zoom (get : τ → σ) (put : σ → τ → τ) (m : Prog φ ε σ α)
    {Q : α → τ → Prop} {E : ε → τ → Prop} {t : τ} :
    wp (zoom get put m) Q E F t ↔
      wp m (fun a s => Q a (put s t)) (fun e s => E e (put s t)) F (get t) := by
  unfold wp zoom
  cases m (get t) <;> rfl

@[simp] lemma wp_ite (c : Prop) [Decidable c] (m n : Prog φ ε σ α) :
    wp (if c then m else n) Q E F s ↔ if c then wp m Q E F s else wp n Q E F s := by
  split <;> rfl

/-- Weaker postconditions ask for less. -/
lemma wp_mono {m : Prog φ ε σ α} {Q' : α → σ → Prop} {E' : ε → σ → Prop} {F' : φ → Prop}
    (h : wp m Q E F s) (hQ : ∀ a s', Q a s' → Q' a s') (hE : ∀ e s', E e s' → E' e s')
    (hF : ∀ k, F k → F' k) : wp m Q' E' F' s := by
  unfold wp at h ⊢
  cases hm : m s with
  | ok a s' => rw [hm] at h; exact hQ a s' h
  | throw e s' => rw [hm] at h; exact hE e s' h
  | fault k => rw [hm] at h; exact hF k h

/-- A weaker postcondition for exceptions. -/
lemma wp_mono_throw {m : Prog φ ε σ α} {E' : ε → σ → Prop} (h : wp m Q E F s)
    (hE : ∀ e s', E e s' → E' e s') : wp m Q E' F s :=
  wp_mono h (fun _ _ hq => hq) hE (fun _ hf => hf)

/-- What two rules say of a program holds of it at once. -/
lemma wp_and {m : Prog φ ε σ α} {Q' : α → σ → Prop} {E' : ε → σ → Prop} {F' : φ → Prop}
    (h : wp m Q E F s) (h' : wp m Q' E' F' s) :
    wp m (fun a t => Q a t ∧ Q' a t) (fun e t => E e t ∧ E' e t) (fun k => F k ∧ F' k) s := by
  unfold wp at h h' ⊢
  cases hm : m s with
  | ok a s' =>
    rw [hm] at h h'
    exact ⟨h, h'⟩
  | throw e s' =>
    rw [hm] at h h'
    exact ⟨h, h'⟩
  | fault k =>
    rw [hm] at h h'
    exact ⟨h, h'⟩

end Rules

/-- A program that neither throws nor faults returns. -/
lemma exists_ok_of_wp {m : Prog φ ε σ α} {Q : α → σ → Prop} {s : σ}
    (h : wp m Q (fun _ _ => False) (fun _ => False) s) : ∃ a s', m s = .ok a s' ∧ Q a s' := by
  unfold wp at h
  cases hm : m s with
  | ok a s' =>
    rw [hm] at h
    exact ⟨a, s', rfl, h⟩
  | throw e s' =>
    rw [hm] at h
    exact h.elim
  | fault k =>
    rw [hm] at h
    exact h.elim

/-- A program that neither returns nor faults throws. -/
lemma exists_throw_of_wp {m : Prog φ ε σ α} {E : ε → σ → Prop} {s : σ}
    (h : wp m (fun _ _ => False) E (fun _ => False) s) : ∃ e s', m s = .throw e s' ∧ E e s' := by
  unfold wp at h
  cases hm : m s with
  | ok a s' =>
    rw [hm] at h
    exact h.elim
  | throw e s' =>
    rw [hm] at h
    exact ⟨e, s', rfl, h⟩
  | fault k =>
    rw [hm] at h
    exact h.elim

lemma wp_of_eq_ok {m : Prog φ ε σ α} {Q : α → σ → Prop} {E : ε → σ → Prop} {F : φ → Prop} {a : α}
    {s t : σ} (h : m s = .ok a t) (hQ : Q a t) : wp m Q E F s := by
  rw [wp, h]
  exact hQ

lemma eq_ok_of_wp {m : Prog φ ε σ α} {a : α} {s t : σ}
    (h : wp m (fun b s' => b = a ∧ s' = t) (fun _ _ => False) (fun _ => False) s) :
    m s = .ok a t := by
  obtain ⟨b, s', hm, rfl, rfl⟩ := exists_ok_of_wp h
  exact hm

lemma bind_of_ok {m : Prog φ ε σ α} {f : α → Prog φ ε σ β} {a : α} {s s' : σ}
    (h : m s = .ok a s') : (m >>= f) s = f a s' := by
  change andThen m f s = _
  rw [andThen, h]

lemma bind_of_throw {m : Prog φ ε σ α} {f : α → Prog φ ε σ β} {e : ε} {s s' : σ}
    (h : m s = .throw e s') : (m >>= f) s = .throw e s' := by
  change andThen m f s = _
  rw [andThen, h]

lemma bind_of_fault {m : Prog φ ε σ α} {f : α → Prog φ ε σ β} {k : φ} {s : σ}
    (h : m s = .fault k) : (m >>= f) s = .fault k := by
  change andThen m f s = _
  rw [andThen, h]

/-- A sequence that returns has returned at every step. -/
lemma exists_ok_of_bind {m : Prog φ ε σ α} {f : α → Prog φ ε σ β} {b : β} {s t : σ}
    (h : (m >>= f) s = .ok b t) : ∃ a s', m s = .ok a s' ∧ f a s' = .ok b t := by
  change andThen m f s = _ at h
  unfold andThen at h
  cases hm : m s with
  | ok a s' =>
    rw [hm] at h
    exact ⟨a, s', rfl, h⟩
  | throw e s' =>
    rw [hm] at h
    cases h
  | fault k =>
    rw [hm] at h
    cases h

lemma zoom_of_ok {get : τ → σ} {put : σ → τ → τ} {m : Prog φ ε σ α} {a : α} {s : σ} {t : τ}
    (h : m (get t) = .ok a s) : zoom get put m t = .ok a (put s t) := by
  rw [zoom, h]

lemma zoom_of_fault {get : τ → σ} {put : σ → τ → τ} {m : Prog φ ε σ α} {k : φ} {t : τ}
    (h : m (get t) = .fault k) : zoom get put m t = .fault k := by
  rw [zoom, h]

/-- A program that returns on a part has changed only that part. -/
lemma exists_ok_of_zoom {get : τ → σ} {put : σ → τ → τ} {m : Prog φ ε σ α} {a : α} {t t' : τ}
    (h : zoom get put m t = .ok a t') : ∃ s, m (get t) = .ok a s ∧ t' = put s t := by
  unfold zoom at h
  cases hm : m (get t) with
  | ok b s =>
    rw [hm] at h
    cases h
    exact ⟨s, rfl, rfl⟩
  | throw e s =>
    rw [hm] at h
    cases h
  | fault k =>
    rw [hm] at h
    cases h

/-- What holds after a return and after a throw holds in the state the caller goes on from. -/
lemma resume_of_wp {m : Prog φ ε σ α} {P : σ → Prop} {F : φ → Prop} {s s' : σ}
    (h : wp m (fun _ => P) (fun _ => P) F s) (hr : (m s).resume = some s') : P s' := by
  unfold wp at h
  cases hm : m s with
  | ok a t =>
    rw [hm] at h hr
    cases hr
    exact h
  | throw e t =>
    rw [hm] at h hr
    cases hr
    exact h
  | fault k =>
    rw [hm] at hr
    cases hr

/-- What holds after a throw. -/
lemma thrown_of_wp {m : Prog φ ε σ α} {Q : α → σ → Prop} {P : σ → Prop} {F : φ → Prop} {s s' : σ}
    (h : wp m Q (fun _ => P) F s) (ht : (m s).thrown = some s') : P s' := by
  unfold wp at h
  cases hm : m s with
  | ok a t =>
    rw [hm] at ht
    cases ht
  | throw e t =>
    rw [hm] at h ht
    cases ht
    exact h
  | fault k =>
    rw [hm] at ht
    cases ht

end Prog

@[simp] lemma ok_bind {ε α β : Type} (a : α) (f : α → Except ε β) :
    (Except.ok a >>= f) = f a := rfl

lemma exists_of_bind_eq_ok {ε α β : Type} {r : Except ε α} {f : α → Except ε β} {b : β}
    (h : (r >>= f) = .ok b) : ∃ a, r = .ok a ∧ f a = .ok b := by
  cases r with
  | error e => cases h
  | ok a => exact ⟨a, rfl, h⟩

lemma exists_of_map_eq_ok {ε α β : Type} {f : α → β} {r : Except ε α} {b : β}
    (h : r.map f = .ok b) : ∃ a, r = .ok a ∧ b = f a := by
  cases r with
  | error e => cases h
  | ok a =>
    cases h
    exact ⟨a, rfl, rfl⟩

end SockLib
