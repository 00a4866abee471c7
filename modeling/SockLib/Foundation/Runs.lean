import Mathlib.Tactic.Common

/-!
# Runs of a labelled transition function

`step s a` is the state after the action `a`, or `none` when `a` is not possible in `s`.
A run is a list of actions. `Along` asks a property of every state a run visits,
`Guarded` asks a condition of every step it takes. When the guard is what keeps an
invariant alive, and every unguarded step breaks the property, the two are equivalent.
-/

namespace SockLib

section Runs

variable {σ α : Type} (step : σ → α → Option σ)

/-- The state after a whole run. -/
def run (s : σ) : List α → Option σ
  | [] => some s
  | a :: as => (step s a).bind (fun s' => run s' as)

/-- `P` holds in every state the run visits, the first and the last included. -/
def Along (P : σ → Prop) (s : σ) : List α → Prop
  | [] => P s
  | a :: as => P s ∧ ∀ s', step s a = some s' → Along P s' as

/-- `G` holds of every step the run takes. -/
def Guarded (G : σ → α → Prop) (s : σ) : List α → Prop
  | [] => True
  | a :: as => ∀ s', step s a = some s' → G s a ∧ Guarded G s' as

/-- What the steps of a run gain and lose never adds up to less than nothing; the run starts
with `n`. -/
def Solvent (gain : σ → α → Int) (s : σ) (n : Int) : List α → Prop
  | [] => 0 ≤ n
  | a :: as => 0 ≤ n ∧ ∀ s', step s a = some s' → Solvent gain s' (n + gain s a) as

variable {step}

lemma Along.head {P : σ → Prop} {s : σ} {as : List α} (h : Along step P s as) : P s := by
  cases as with
  | nil => exact h
  | cons a as => exact h.1

/-- A property along a run holds where the run ends. -/
lemma Along.last {P : σ → Prop} {s s' : σ} {as : List α} (h : Along step P s as)
    (hr : run step s as = some s') : P s' := by
  induction as generalizing s with
  | nil =>
    cases hr
    exact h
  | cons a as ih =>
    obtain ⟨t, ht, hr'⟩ := Option.bind_eq_some_iff.mp hr
    exact ih (h.2 t ht) hr'

lemma Along.mono {P P' : σ → Prop} (hP : ∀ s, P s → P' s) {s : σ} {as : List α}
    (h : Along step P s as) : Along step P' s as := by
  induction as generalizing s with
  | nil => exact hP s h
  | cons a as ih => exact ⟨hP s h.1, fun s' hs' => ih (h.2 s' hs')⟩

lemma Guarded.cons {G : σ → α → Prop} {s t : σ} {a : α} {as : List α} (hs : step s a = some t)
    (hg : G s a) (h : Guarded step G t as) : Guarded step G s (a :: as) := by
  intro s' hs'
  obtain rfl : t = s' := Option.some.inj (hs.symm.trans hs')
  exact ⟨hg, h⟩

/-- A condition that can be decided can be decided of a run. -/
instance decidableGuarded (step : σ → α → Option σ) (G : σ → α → Prop)
    [∀ s a, Decidable (G s a)] : ∀ (s : σ) (as : List α), Decidable (Guarded step G s as)
  | _, [] => .isTrue trivial
  | s, a :: as =>
    match h : step s a with
    | none => .isTrue fun s' hs => by
      rw [h] at hs
      cases hs
    | some t =>
      have := decidableGuarded step G t as
      decidable_of_iff (G s a ∧ Guarded step G t as)
        ⟨fun hg => hg.2.cons h hg.1, fun hg => hg t h⟩

/-- A guard that asks nothing is met by every run. -/
lemma guarded_of_forall {G : σ → α → Prop} {s : σ} {as : List α} (h : ∀ s, ∀ a ∈ as, G s a) :
    Guarded step G s as := by
  induction as generalizing s with
  | nil => trivial
  | cons a as ih =>
    intro s' _
    exact ⟨h s a List.mem_cons_self, ih (fun s b hb => h s b (List.mem_cons_of_mem a hb))⟩

/-- The invariant rule: what holds at the start and is kept by every guarded step holds
in every state of a guarded run. -/
theorem along_of_guarded {I : σ → Prop} {G : σ → α → Prop}
    (hstep : ∀ s a s', I s → G s a → step s a = some s' → I s')
    {s : σ} {as : List α} (hs : I s) (hg : Guarded step G s as) : Along step I s as := by
  induction as generalizing s with
  | nil => exact hs
  | cons a as ih =>
    refine ⟨hs, fun s' hs' => ?_⟩
    obtain ⟨hga, hrest⟩ := hg s' hs'
    exact ih (hstep s a s' hs hga hs') hrest

/-- An invariant of every step holds along every run, with all that it implies. -/
theorem along_of_step {I P : σ → Prop} (hIP : ∀ s, I s → P s)
    (hstep : ∀ s a s', I s → step s a = some s' → I s')
    {s : σ} {as : List α} (hs : I s) : Along step P s as := by
  apply Along.mono hIP
  apply along_of_guarded (G := fun _ _ => True)
  · intro s a s' h _ ha
    exact hstep s a s' h ha
  · exact hs
  · exact guarded_of_forall fun _ _ _ => trivial

/-- What an invariant implies of every step holds of the steps of every run. -/
theorem guarded_of_step {I : σ → Prop} {G : σ → α → Prop}
    (hstep : ∀ s a s', I s → step s a = some s' → I s')
    (hG : ∀ s a s', I s → step s a = some s' → G s a)
    {s : σ} {as : List α} (hs : I s) : Guarded step G s as := by
  induction as generalizing s with
  | nil => trivial
  | cons a as ih =>
    intro s' hs'
    exact ⟨hG s a s' hs hs', ih (hstep s a s' hs hs')⟩

/-- A run keeps `P` in every state exactly when all its steps meet the guard, provided
guarded steps keep an invariant that implies `P` and unguarded steps break `P`. -/
theorem along_iff_guarded {I P : σ → Prop} {G : σ → α → Prop} (hIP : ∀ s, I s → P s)
    (hstep : ∀ s a s', I s → G s a → step s a = some s' → I s')
    (hbreak : ∀ s a s', I s → ¬G s a → step s a = some s' → ¬P s')
    {s : σ} {as : List α} (hs : I s) : Along step P s as ↔ Guarded step G s as := by
  constructor
  · intro h
    induction as generalizing s with
    | nil => trivial
    | cons a as ih =>
      intro s' hs'
      have hga : G s a := by
        by_contra hn
        exact hbreak s a s' hs hn hs' (h.2 s' hs').head
      exact ⟨hga, ih (hstep s a s' hs hga hs') (h.2 s' hs')⟩
  · intro h
    exact (along_of_guarded hstep hs h).mono hIP

/-- Two guards that agree where an invariant holds are met by the same runs. -/
theorem guarded_iff_guarded {I : σ → Prop} {G G' : σ → α → Prop}
    (hstep : ∀ s a s', I s → step s a = some s' → I s')
    (hG : ∀ s a s', I s → step s a = some s' → (G s a ↔ G' s a))
    {s : σ} {as : List α} (hs : I s) : Guarded step G s as ↔ Guarded step G' s as := by
  induction as generalizing s with
  | nil => rfl
  | cons a as ih =>
    apply forall₂_congr
    intro s' hs'
    rw [hG s a s' hs hs', ih (hstep s a s' hs hs')]

/-- A property that an invariant ties to an account holds along a run exactly when the account
is never overdrawn. `A` holds of the actions of the run. -/
theorem along_iff_solvent {I : σ → Int → Prop} {P : σ → Prop} {A : α → Prop}
    {gain : σ → α → Int} (hP : ∀ s n, I s n → (P s ↔ 0 ≤ n))
    (hstep : ∀ s n a s', I s n → A a → step s a = some s' → I s' (n + gain s a))
    {s : σ} {n : Int} {as : List α} (hs : I s n) (hA : ∀ a ∈ as, A a) :
    Along step P s as ↔ Solvent step gain s n as := by
  induction as generalizing s n with
  | nil => exact hP s n hs
  | cons a as ih =>
    apply and_congr (hP s n hs)
    apply forall₂_congr
    intro s' hs'
    apply ih (hstep s n a s' hs (hA a List.mem_cons_self) hs')
    intro b hb
    exact hA b (List.mem_cons_of_mem a hb)

end Runs

end SockLib
