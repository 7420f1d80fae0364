import Mathlib.Logic.Basic

/-! # Programs of requests

A program over a signature of requests either has returned or issues one request and goes on
with the response. Nothing here knows what the requests are.

* `Prog`: the programs; `Prog.bind` runs one after another.
* `Interface`: how a state answers a request (`exec`) and which requests are permitted (`may`).
* `Prog.wp I p Q s`: started in `s`, `p` issues only permitted requests, and whenever it returns
  the result and the state satisfy `Q`, whatever the answers were.
* `Steps I p s p' s'`: `p` in `s` got as far as `p'` in `s'` (a run may stop anywhere: a crash).
* `monitor`: an interface whose state takes note of requests and answers; `recorder` is the one
  whose state is the history, latest first.
-/
set_option autoImplicit false

namespace PixelForge.Effects

universe u v w x

/-- A program that issues requests `q : Req`, is answered by a `Resp q`, and returns an `α`. -/
inductive Prog (Req : Type u) (Resp : Req → Type v) (α : Type w) : Type (max u v w)
  | ret (a : α)
  | call (q : Req) (k : Resp q → Prog Req Resp α)

namespace Prog

variable {Req : Type u} {Resp : Req → Type v} {α β γ : Type w}

/-- Run `p`, then go on with `f` on its result. -/
def bind (p : Prog Req Resp α) (f : α → Prog Req Resp β) : Prog Req Resp β :=
  match p with
  | .ret a => f a
  | .call q k => .call q (fun r => (k r).bind f)

/-- Whether the program has returned. -/
def done : Prog Req Resp α → Bool
  | .ret _ => true
  | .call _ _ => false

@[simp] theorem ret_bind (a : α) (f : α → Prog Req Resp β) : (ret a).bind f = f a := rfl

@[simp] theorem call_bind (q : Req) (k : Resp q → Prog Req Resp α) (f : α → Prog Req Resp β) :
    (call q k).bind f = .call q (fun r => (k r).bind f) := rfl

end Prog

/-- How the surroundings of a program treat its requests: `may s q` says that `q` is permitted in
`s`, `exec s q r s'` that `q` may be answered by `r`, leading to `s'`. -/
structure Interface (Req : Type u) (Resp : Req → Type v) (σ : Type x) where
  may : σ → Req → Prop
  exec : σ → (q : Req) → Resp q → σ → Prop

section Wp

variable {Req : Type u} {Resp : Req → Type v} {α β : Type w} {σ : Type x}

/-- Every request of `p` is permitted when it is issued and every result satisfies `Q`. -/
def Prog.wp (I : Interface Req Resp σ) : Prog Req Resp α → (α → σ → Prop) → σ → Prop
  | .ret a, Q, s => Q a s
  | .call q k, Q, s => I.may s q ∧ ∀ r s', I.exec s q r s' → Prog.wp I (k r) Q s'

variable {I : Interface Req Resp σ}

@[simp] theorem wp_ret (a : α) (Q : α → σ → Prop) (s : σ) :
    Prog.wp I (.ret a : Prog Req Resp α) Q s ↔ Q a s := Iff.rfl

theorem wp_call (q : Req) (k : Resp q → Prog Req Resp α) (Q : α → σ → Prop) (s : σ) :
    Prog.wp I (.call q k) Q s ↔
      I.may s q ∧ ∀ r s', I.exec s q r s' → Prog.wp I (k r) Q s' := Iff.rfl

theorem wp_bind (p : Prog Req Resp α) (f : α → Prog Req Resp β) (Q : β → σ → Prop) (s : σ) :
    Prog.wp I (p.bind f) Q s ↔ Prog.wp I p (fun a s' => Prog.wp I (f a) Q s') s := by
  induction p generalizing s with
  | ret a => rfl
  | call q k ih =>
    rw [Prog.call_bind, wp_call, wp_call]
    simp only [ih]

theorem wp_mono {p : Prog Req Resp α} {Q Q' : α → σ → Prop} {s : σ} (h : Prog.wp I p Q s)
    (hQ : ∀ a s', Q a s' → Q' a s') : Prog.wp I p Q' s := by
  induction p generalizing s with
  | ret a => exact hQ a s h
  | call q k ih => exact ⟨h.1, fun r s' he => ih r (h.2 r s' he)⟩

/-- Where every request is permitted, nothing is to be shown of a program. -/
theorem wp_of_may (hmay : ∀ s q, I.may s q) (p : Prog Req Resp α) (s : σ) :
    Prog.wp I p (fun _ _ => True) s := by
  induction p generalizing s with
  | ret a => trivial
  | call q k ih => exact ⟨hmay s q, fun r s' _ => ih r s'⟩

end Wp

/-! ## Runs -/

section Runs

variable {Req : Type u} {Resp : Req → Type v} {α : Type w} {σ : Type x}

/-- `p` in state `s` got as far as `p'` in state `s'`. -/
inductive Steps (I : Interface Req Resp σ) :
    Prog Req Resp α → σ → Prog Req Resp α → σ → Prop
  | refl (p : Prog Req Resp α) (s : σ) : Steps I p s p s
  | step {q : Req} {k : Resp q → Prog Req Resp α} {s s' t : σ} {r : Resp q}
      {p : Prog Req Resp α} (he : I.exec s q r s') (h : Steps I (k r) s' p t) :
      Steps I (.call q k) s p t

variable {I : Interface Req Resp σ} {p p' : Prog Req Resp α} {Q : α → σ → Prop} {s s' : σ}

theorem Steps.wp (h : Steps I p s p' s') (hp : Prog.wp I p Q s) : Prog.wp I p' Q s' := by
  induction h with
  | refl => exact hp
  | step he _ ih => exact ih (hp.2 _ _ he)

theorem Steps.trans {p'' : Prog Req Resp α} {s'' : σ} (h : Steps I p s p' s')
    (h' : Steps I p' s' p'' s'') : Steps I p s p'' s'' := by
  induction h with
  | refl => exact h'
  | step he _ ih => exact .step he (ih h')

theorem Steps.snoc {q : Req} {k : Resp q → Prog Req Resp α} {r : Resp q} {t : σ}
    (h : Steps I p s (.call q k) s') (he : I.exec s' q r t) : Steps I p s (k r) t :=
  h.trans (.step he (.refl _ _))

theorem Steps.bind {β : Type w} {p p' : Prog Req Resp β} (h : Steps I p s p' s')
    (f : β → Prog Req Resp α) : Steps I (p.bind f) s (p'.bind f) s' := by
  induction h with
  | refl => exact .refl _ _
  | step he _ ih => exact .step he ih

/-- A run is a run of every interface that answers alike. -/
theorem Steps.congr {J : Interface Req Resp σ} (h : Steps I p s p' s')
    (hexec : ∀ s q r s', I.exec s q r s' → J.exec s q r s') : Steps J p s p' s' := by
  induction h with
  | refl => exact .refl _ _
  | step he _ ih => exact .step (hexec _ _ _ _ he) ih

/-- A run that is over ends in a state the program was proved to end in. -/
theorem Steps.returned {a : α} (h : Steps I p s (.ret a) s') (hp : Prog.wp I p Q s) : Q a s' :=
  h.wp hp

/-- What every permitted and executed request preserves, a run preserves. -/
theorem Steps.invariant {J : σ → Prop} (h : Steps I p s p' s') (hp : Prog.wp I p Q s)
    (hstep : ∀ s q r s', I.may s q → I.exec s q r s' → J s → J s') (hJ : J s) : J s' := by
  induction h with
  | refl => exact hJ
  | step he _ ih => exact ih (hp.2 _ _ he) (hstep _ _ _ _ hp.1 he hJ)

/-- A program that is always answered runs to its end. -/
theorem Steps.exists_returned (hans : ∀ s q, ∃ r s', I.exec s q r s') (p : Prog Req Resp α)
    (s : σ) : ∃ a s', Steps I p s (.ret a) s' := by
  induction p generalizing s with
  | ret a => exact ⟨a, s, .refl _ _⟩
  | call q k ih =>
    obtain ⟨r, s₁, he⟩ := hans s q
    obtain ⟨a, s₂, h⟩ := ih r s₁
    exact ⟨a, s₂, .step he h⟩

end Runs

/-! ## Histories -/

section Histories

variable {Req : Type u} {Resp : Req → Type v}

/-- A request with the answer it was given. -/
abbrev Event (Req : Type u) (Resp : Req → Type v) : Type (max u v) := (q : Req) × Resp q

/-- The interface whose state only takes note of what was asked and answered. -/
def monitor {τ : Type x} (note : Event Req Resp → τ → τ) (may : τ → Req → Prop)
    (answers : (q : Req) → Resp q → Prop) : Interface Req Resp τ where
  may := may
  exec := fun t q r t' => answers q r ∧ t' = note ⟨q, r⟩ t

/-- The monitor that writes everything down, latest first. -/
def recorder (may : List (Event Req Resp) → Req → Prop) (answers : (q : Req) → Resp q → Prop) :
    Interface Req Resp (List (Event Req Resp)) :=
  monitor List.cons may answers

variable {α : Type w} {τ : Type x} {note : Event Req Resp → τ → τ} {may : τ → Req → Prop}
  {answers : (q : Req) → Resp q → Prop}

theorem wp_monitor_call (q : Req) (k : Resp q → Prog Req Resp α) (Q : α → τ → Prop) (t : τ) :
    Prog.wp (monitor note may answers) (.call q k) Q t ↔
      may t q ∧ ∀ r, answers q r →
        Prog.wp (monitor note may answers) (k r) Q (note ⟨q, r⟩ t) := by
  rw [wp_call]
  refine and_congr_right fun _ => ⟨fun H r hr => H r _ ⟨hr, rfl⟩, ?_⟩
  rintro H r _ ⟨hr, rfl⟩
  exact H r hr

theorem Steps.suffix {p p' : Prog Req Resp α} {t t' : List (Event Req Resp)}
    {may : List (Event Req Resp) → Req → Prop}
    (h : Steps (recorder may answers) p t p' t') : t <:+ t' := by
  induction h with
  | refl => exact List.suffix_rfl
  | step he _ ih =>
    obtain ⟨-, rfl⟩ := he
    exact (List.suffix_cons _ _).trans ih

/-- Whatever else is known of the answers of a run may be required of the answers. -/
theorem Steps.restrict {p p' : Prog Req Resp α} {t t' : List (Event Req Resp)}
    {may may' : List (Event Req Resp) → Req → Prop} {answers' : (q : Req) → Resp q → Prop}
    (h : Steps (recorder may answers) p t p' t')
    (ha : ∀ v ∈ t', answers v.1 v.2 → answers' v.1 v.2) :
    Steps (recorder may' answers') p t p' t' := by
  induction h with
  | refl => exact .refl _ _
  | step he h ih =>
    obtain ⟨hr, rfl⟩ := he
    have hmem := h.suffix.subset List.mem_cons_self
    exact .step ⟨ha _ hmem hr, rfl⟩ (ih ha)

/-- Every request of a run was permitted by the history before it. -/
theorem Steps.permitted {p p' : Prog Req Resp α} {t : List (Event Req Resp)}
    {may : List (Event Req Resp) → Req → Prop} {Q : α → List (Event Req Resp) → Prop}
    (h : Steps (recorder may answers) p [] p' t) (hp : Prog.wp (recorder may answers) p Q [])
    {later earlier : List (Event Req Resp)} {v : Event Req Resp} (ht : t = later ++ v :: earlier) :
    may earlier v.1 := by
  revert later earlier v
  refine h.invariant (J := fun t => ∀ {later earlier v}, t = later ++ v :: earlier →
    may earlier v.1) hp (fun s q r s' hmay he hJ later earlier v ht => ?_) ?_
  · obtain ⟨-, rfl⟩ := he
    cases later with
    | nil =>
      obtain ⟨rfl, rfl⟩ := List.cons.inj ht
      exact hmay
    | cons v' later => exact hJ (List.cons.inj ht).2
  · intro later earlier v ht
    simp at ht

theorem Steps.answered {p p' : Prog Req Resp α} {t t' : List (Event Req Resp)}
    {may : List (Event Req Resp) → Req → Prop} (h : Steps (recorder may answers) p t p' t')
    (ht : ∀ v ∈ t, answers v.1 v.2) : ∀ v ∈ t', answers v.1 v.2 := by
  induction h with
  | refl => exact ht
  | step he _ ih =>
    obtain ⟨hr, rfl⟩ := he
    exact ih (List.forall_mem_cons.mpr ⟨hr, ht⟩)

theorem Steps.asked {p p' : Prog Req Resp α} {t : List (Event Req Resp)} {P : Req → Prop}
    {may : List (Event Req Resp) → Req → Prop} {Q : α → List (Event Req Resp) → Prop}
    (h : Steps (recorder may answers) p [] p' t)
    (hp : Prog.wp (recorder (fun _ q => P q) answers) p Q []) {v : Event Req Resp} (hv : v ∈ t) :
    P v.1 := by
  have hrun : Steps (recorder (fun _ q => P q) answers) p [] p' t := h.restrict fun _ _ ha => ha
  obtain ⟨later, earlier, ht⟩ := List.append_of_mem hv
  exact hrun.permitted hp ht

/-- What a monitor shows of a program holds of its histories, read through the monitor. -/
theorem wp_recorder_of_monitor {p : Prog Req Resp α} {Q : α → τ → Prop} {t₀ : τ}
    {h : List (Event Req Resp)}
    (hp : Prog.wp (monitor note may answers) p Q (h.foldr note t₀)) :
    Prog.wp (recorder (fun h q => may (h.foldr note t₀) q) answers) p
      (fun a h => Q a (h.foldr note t₀)) h := by
  induction p generalizing h with
  | ret a => exact hp
  | call q k ih =>
    rw [wp_monitor_call] at hp
    exact (wp_monitor_call q k _ h).mpr ⟨hp.1, fun r hr => ih r (hp.2 r hr)⟩

/-- An interface together with the history of the run, latest first, and a discipline on it. -/
def Interface.logged {σ : Type} (I : Interface Req Resp σ)
    (may : List (Event Req Resp) → Req → Prop) :
    Interface Req Resp (σ × List (Event Req Resp)) where
  may := fun s q => may s.2 q
  exec := fun s q r s' => I.exec s.1 q r s'.1 ∧ s'.2 = ⟨q, r⟩ :: s.2

/-- A program keeps to its discipline whatever answers it. -/
theorem wp_logged {σ : Type} {I : Interface Req Resp σ} {p : Prog Req Resp α}
    {may : List (Event Req Resp) → Req → Prop} {Q : α → List (Event Req Resp) → Prop}
    {h : List (Event Req Resp)} (hans : ∀ s q r s', I.exec s q r s' → answers q r)
    (hp : Prog.wp (recorder may answers) p Q h) (s : σ) :
    Prog.wp (I.logged may) p (fun a s => Q a s.2) (s, h) := by
  induction p generalizing h s with
  | ret a => exact hp
  | call q k ih =>
    refine ⟨hp.1, ?_⟩
    rintro r ⟨s', h'⟩ ⟨he, rfl⟩
    exact ih r (hp.2 r _ ⟨hans _ _ _ _ he, rfl⟩) s'

theorem Steps.logged {σ : Type} {I : Interface Req Resp σ} {p p' : Prog Req Resp α} {s s' : σ}
    {may : List (Event Req Resp) → Req → Prop} (h : Steps I p s p' s') (t : List (Event Req Resp)) :
    ∃ t', Steps (I.logged may) p (s, t) p' (s', t') := by
  induction h generalizing t with
  | refl p s => exact ⟨t, .refl p (s, t)⟩
  | step he _ ih =>
    obtain ⟨t', h⟩ := ih (⟨_, _⟩ :: t)
    exact ⟨t', .step ⟨he, rfl⟩ h⟩

/-- **Induction over the runs of a program that keeps to a discipline**, for a property of the state
and the history. -/
theorem Steps.disciplined {σ : Type} {I : Interface Req Resp σ} {p p' : Prog Req Resp α} {s s' : σ}
    {may : List (Event Req Resp) → Req → Prop} {Q : α → List (Event Req Resp) → Prop}
    {J : σ → List (Event Req Resp) → Prop} (h : Steps I p s p' s')
    (hp : Prog.wp (recorder may answers) p Q []) (hans : ∀ s q r s', I.exec s q r s' → answers q r)
    (hstep : ∀ s t q r s', may t q → I.exec s q r s' → J s t → J s' (⟨q, r⟩ :: t)) (hJ : J s []) :
    ∃ t, J s' t := by
  obtain ⟨t, hrun⟩ : ∃ t, Steps (I.logged may) p (s, []) p' (s', t) := h.logged []
  refine ⟨t, hrun.invariant (J := fun x => J x.1 x.2) (wp_logged hans hp s) ?_ hJ⟩
  rintro ⟨s₁, t₁⟩ q r ⟨s₂, t₂⟩ hmay ⟨he, rfl⟩ hJ
  exact hstep s₁ t₁ q r s₂ hmay he hJ

end Histories

end PixelForge.Effects
