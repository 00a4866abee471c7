import SockLib.Foundation.Runs

/-!
# Refinement of transition functions

A program and a specification are two transition functions. `abs` says which state of the
specification a state of the program stands for, and `tr` which action an action stands for.
When the specification makes exactly the good steps of the program, it makes exactly its good
runs, and the program cannot be told from the specification by what it stands for. When it
only makes all of them, a relation between the states is enough, and a good run of the program
is one of the specification.
-/

namespace SockLib

section Refinement

variable {σ τ α β : Type}

/-- `I` is kept by the good steps, those that meet `G`, and they are the steps of the
specification. -/
structure Refines (step : σ → α → Option σ) (spec : τ → β → Option τ) (abs : σ → τ)
    (tr : α → β) (I : σ → Prop) (G : σ → α → Prop) : Prop where
  keeps : ∀ s a s', I s → G s a → step s a = some s' → I s'
  matches_iff : ∀ s a t, I s →
    (spec (abs s) (tr a) = some t ↔ G s a ∧ ∃ s', step s a = some s' ∧ abs s' = t)

variable {step : σ → α → Option σ} {spec : τ → β → Option τ} {abs : σ → τ} {tr : α → β}
  {I : σ → Prop} {G : σ → α → Prop}

/-- The specification makes a run exactly when the program makes it by good steps. -/
theorem Refines.run_iff (h : Refines step spec abs tr I G) {s : σ} {as : List α} {t : τ}
    (hs : I s) :
    run spec (abs s) (as.map tr) = some t ↔
      Guarded step G s as ∧ ∃ s', run step s as = some s' ∧ abs s' = t := by
  induction as generalizing s with
  | nil => simp [run, Guarded]
  | cons a as ih =>
    simp only [List.map_cons, run, Option.bind_eq_some_iff, h.matches_iff s a _ hs]
    constructor
    · rintro ⟨_, ⟨hg, s₁, hstep, rfl⟩, hrest⟩
      obtain ⟨hguarded, s', hrun, habs⟩ := (ih (h.keeps s a s₁ hs hg hstep)).mp hrest
      exact ⟨hguarded.cons hstep hg, s', ⟨s₁, hstep, hrun⟩, habs⟩
    · rintro ⟨hguarded, s', ⟨s₁, hstep, hrun⟩, habs⟩
      obtain ⟨hg, hrest⟩ := hguarded s₁ hstep
      have hs₁ := h.keeps s a s₁ hs hg hstep
      exact ⟨abs s₁, ⟨hg, s₁, hstep, rfl⟩, (ih hs₁).mpr ⟨hrest, s', hrun, habs⟩⟩

lemma Refines.along (h : Refines step spec abs tr I G) {s : σ} {as : List α} (hs : I s)
    (hg : Guarded step G s as) : Along step I s as :=
  along_of_guarded h.keeps hs hg

/-- Two programs of the same meaning make the same run: where one takes good steps to its end,
so does the other, and they end in states that stand for the same. -/
theorem Refines.run_agree (h : Refines step spec abs tr I G) {s t s' : σ} {as bs : List α}
    (hs : I s) (ht : I t) (hst : abs s = abs t) (hab : as.map tr = bs.map tr)
    (hg : Guarded step G s as) (hr : run step s as = some s') :
    Guarded step G t bs ∧ ∃ t', run step t bs = some t' ∧ abs t' = abs s' := by
  have hspec := (h.run_iff hs).mpr ⟨hg, s', hr, rfl⟩
  rw [hst, hab] at hspec
  exact (h.run_iff ht).mp hspec

/-- The specification follows every good step of the program. -/
def Simulates (step : σ → α → Option σ) (spec : τ → β → Option τ) (tr : α → β)
    (R : σ → τ → Prop) (G : σ → α → Prop) : Prop :=
  ∀ s t a s', R s t → G s a → step s a = some s' → ∃ t', spec t (tr a) = some t' ∧ R s' t'

theorem Simulates.exists_run {R : σ → τ → Prop} (h : Simulates step spec tr R G) {s s' : σ} {t : τ}
    {as : List α} (hst : R s t) (hg : Guarded step G s as) (hr : run step s as = some s') :
    ∃ t', run spec t (as.map tr) = some t' ∧ R s' t' := by
  induction as generalizing s t with
  | nil =>
    cases hr
    exact ⟨t, rfl, hst⟩
  | cons a as ih =>
    obtain ⟨s₁, hs₁, hrest⟩ := Option.bind_eq_some_iff.mp hr
    obtain ⟨hga, hguarded⟩ := hg s₁ hs₁
    obtain ⟨t₁, ht₁, hst₁⟩ := h s t a s₁ hst hga hs₁
    obtain ⟨t', ht', hst'⟩ := ih hst₁ hguarded hrest
    refine ⟨t', ?_, hst'⟩
    rw [List.map_cons, run, ht₁]
    exact ht'

/-- Two programs of the same meaning end in states that stand for the same. -/
theorem Simulates.run_agree {R : σ → τ → Prop} (h : Simulates step spec tr R G) {s₁ s₂ : σ}
    {t₁ t₂ : σ} {u : τ} {as bs : List α} (hs : R s₁ u) (ht : R t₁ u)
    (hab : as.map tr = bs.map tr) (hgs : Guarded step G s₁ as) (hgt : Guarded step G t₁ bs)
    (hrs : run step s₁ as = some s₂) (hrt : run step t₁ bs = some t₂) :
    ∃ v, R s₂ v ∧ R t₂ v := by
  obtain ⟨v, hv, hsv⟩ := h.exists_run hs hgs hrs
  obtain ⟨v', hv', htv⟩ := h.exists_run ht hgt hrt
  have heq : v' = v := by
    rw [hab, hv'] at hv
    exact Option.some.inj hv
  exact ⟨v, hsv, heq ▸ htv⟩

end Refinement

end SockLib
