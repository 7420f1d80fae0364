import Mathlib.Data.List.Induction

/-! # Runs of a labelled step function

A small state machine is a step function `σ → ℓ → Option σ`: the label says what happens next, and
`none` that it cannot happen there. A run is a list of labels. `runs_invariant` is the induction
over runs for a property of the state and the labels so far.
-/
set_option autoImplicit false

namespace PixelForge.Effects

variable {σ ℓ : Type} {step : σ → ℓ → Option σ} {s s' t : σ} {ls ls' : List ℓ}

/-- The state that the labels lead to. -/
def runs (step : σ → ℓ → Option σ) : σ → List ℓ → Option σ
  | s, [] => some s
  | s, l :: ls => (step s l).bind fun t => runs step t ls

@[simp] theorem runs_nil : runs step s [] = some s := rfl

theorem runs_cons {l : ℓ} :
    runs step s (l :: ls) = some s' ↔ ∃ t, step s l = some t ∧ runs step t ls = some s' := by
  rw [runs]
  exact Option.bind_eq_some_iff

theorem runs_append :
    runs step s (ls ++ ls') = some s' ↔ ∃ t, runs step s ls = some t ∧ runs step t ls' = some s' := by
  induction ls generalizing s with
  | nil => simp
  | cons l ls ih =>
    rw [List.cons_append, runs_cons]
    simp only [ih, runs_cons]
    constructor
    · intro ⟨u, hu, t, ht, hrest⟩
      exact ⟨t, ⟨u, hu, ht⟩, hrest⟩
    · intro ⟨t, ⟨u, hu, ht⟩, hrest⟩
      exact ⟨u, hu, t, ht, hrest⟩

theorem runs_snoc {l : ℓ} :
    runs step s (ls ++ [l]) = some s' ↔ ∃ t, runs step s ls = some t ∧ step t l = some s' := by
  rw [runs_append]
  simp [runs_cons]

/-- **Induction over runs.** A property of the state and the labels so far holds after every run
when it holds before the first label and each step keeps it. -/
theorem runs_invariant {P : σ → List ℓ → Prop} (hrun : runs step s ls = some s') (hinit : P s [])
    (hstep : ∀ ls t l t', runs step s ls = some t → P t ls → step t l = some t' →
      P t' (ls ++ [l])) : P s' ls := by
  induction ls using List.reverseRecOn generalizing s' with
  | nil =>
    rw [runs_nil, Option.some.injEq] at hrun
    rw [← hrun]
    exact hinit
  | append_singleton ls l ih =>
    obtain ⟨t, ht, hl⟩ := runs_snoc.mp hrun
    exact hstep ls t l s' ht (ih ht) hl

theorem of_guarded {p : Prop} [Decidable p] (h : (if p then some t else none) = some s') :
    p ∧ s' = t := by
  obtain ⟨hp, ht⟩ := Option.ite_none_right_eq_some.mp h
  exact ⟨hp, (Option.some.inj ht).symm⟩

/-! ## Inevitability -/

/-- Whatever happens, by labels that satisfy `own`, a state with `Q` is reached: until then one of
them can happen, and each that can leads on to such a state. -/
inductive Inevitable (step : σ → ℓ → Option σ) (own : ℓ → Bool) (Q : σ → Prop) : σ → Prop
  | now {s : σ} (h : Q s) : Inevitable step own Q s
  | later {s : σ} (hlive : ∃ l, own l = true ∧ (step s l).isSome = true)
      (h : ∀ l s', own l = true → step s l = some s' → Inevitable step own Q s') :
      Inevitable step own Q s

/-- A measure that every such label lowers, where one can always happen, makes `Q` inevitable. -/
theorem inevitable_of_measure {own : ℓ → Bool} {P Q : σ → Prop} (m : σ → ℕ)
    (hlive : ∀ s, P s → Q s ∨ ∃ l, own l = true ∧ (step s l).isSome = true)
    (hstep : ∀ s l s', P s → own l = true → step s l = some s' → P s' ∧ m s' < m s) (hs : P s) :
    Inevitable step own Q s := by
  induction hm : m s using Nat.strongRecOn generalizing s with
  | ind n ih =>
    rcases hlive s hs with hq | hnext
    · exact .now hq
    · refine .later hnext fun l s' hl hl' => ?_
      obtain ⟨hs', hlower⟩ := hstep s l s' hs hl hl'
      exact ih (m s') (hm ▸ hlower) hs' rfl

end PixelForge.Effects
