import Mathlib.Data.List.Forall2
import Mathlib.Data.Set.BooleanAlgebra
import Mathlib.Data.Set.Disjoint
import Mathlib.Order.CompletePartialOrder
import PixelForge.Effects.Exceptions

/-! # Runs under given choices

`Prog.play perform p s chs` runs `p` from `s` with one choice of the surroundings for each request.

* Footprints: a state is seen through cells. `writes q` are the cells a request may change; its
  answer, and what becomes of a cell from what the cell was, depend on the cells `reads q`. A run
  keeps every cell it does not write (`play_frame`), goes the same way from a state that agrees on
  what it reads (`play_congr`), and two runs that do not write what the other uses commute
  (`play_commute`).
* Two runs: `Prog.Alike` relates programs whose requests and continuations are related, and related
  programs from related states go the same way (`Prog.Alike.play`).
-/
set_option autoImplicit false

namespace PixelForge.Effects

section Play

variable {Req Choice σ α : Type} {Resp : Req → Type}
  (perform : σ → (q : Req) → Choice → Option (Resp q × σ))

/-- What is left of the program, the state and the history (latest first) after the choices,
`none` when a choice is not possible. -/
def Prog.play : Prog Req Resp α → σ → List Choice →
    Option (Prog Req Resp α × σ × List (Event Req Resp))
  | p, s, [] => some (p, s, [])
  | .ret _, _, _ :: _ => none
  | .call q k, s, ch :: chs =>
    match perform s q ch with
    | none => none
    | some (r, s') => ((k r).play s' chs).map fun x => (x.1, x.2.1, x.2.2 ++ [⟨q, r⟩])

variable {perform} {p p' : Prog Req Resp α} {s s' t t' : σ} {chs : List Choice}
  {h : List (Event Req Resp)}

theorem Prog.play_call {q : Req} {k : Resp q → Prog Req Resp α} {ch : Choice}
    (hp : (Prog.call q k).play perform s (ch :: chs) = some (p', s', h)) :
    ∃ r s₁ h', perform s q ch = some (r, s₁) ∧ (k r).play perform s₁ chs = some (p', s', h') ∧
      h = h' ++ [⟨q, r⟩] := by
  simp only [Prog.play] at hp
  split at hp
  · cases hp
  · rename_i r s₁ hr
    obtain ⟨⟨p'', s'', h'⟩, hk, he⟩ := Option.map_eq_some_iff.mp hp
    cases he
    exact ⟨r, s₁, h', hr, hk, rfl⟩

theorem Prog.play_step {q : Req} {k : Resp q → Prog Req Resp α} {ch : Choice} {r : Resp q} {s₁ : σ}
    (hr : perform s q ch = some (r, s₁)) (hk : (k r).play perform s₁ chs = some (p', s', h)) :
    (Prog.call q k).play perform s (ch :: chs) = some (p', s', h ++ [⟨q, r⟩]) := by
  simp only [Prog.play, hr, hk, Option.map_some]

theorem Prog.play_bind {β : Type} {m : Prog Req Resp β} {f : β → Prog Req Resp α} {b : β}
    (chs₁ chs₂ : List Choice) {h₁ h₂ : List (Event Req Resp)}
    (hm : m.play perform s chs₁ = some (.ret b, s', h₁))
    (hf : (f b).play perform s' chs₂ = some (p', t, h₂)) :
    (m.bind f).play perform s (chs₁ ++ chs₂) = some (p', t, h₂ ++ h₁) := by
  induction chs₁ generalizing m s h₁ with
  | nil =>
    cases m <;> cases hm
    rw [List.append_nil]
    exact hf
  | cons ch chs ih =>
    cases m with
    | ret a => cases hm
    | call q k =>
      obtain ⟨r, s₁, h', hr, hk, rfl⟩ := Prog.play_call hm
      rw [Prog.call_bind, List.cons_append, ← List.append_assoc]
      exact Prog.play_step hr (ih hk)

theorem Fallible.play_bind {ε β γ : Type} {x : Fallible Req Resp ε β}
    {f : β → Fallible Req Resp ε γ} {b : β} {p' : Fallible Req Resp ε γ} (chs₁ chs₂ : List Choice)
    {h₁ h₂ : List (Event Req Resp)} (hx : Prog.play perform x s chs₁ = some (.ret (.ok b), s', h₁))
    (hf : Prog.play perform (f b) s' chs₂ = some (p', t, h₂)) :
    Prog.play perform (Bind.bind (m := Fallible Req Resp ε) x f) s (chs₁ ++ chs₂) =
      some (p', t, h₂ ++ h₁) :=
  Prog.play_bind chs₁ chs₂ hx hf

theorem Fallible.play_tryElse_error {ε β γ : Type} {x : Fallible Req Resp ε β}
    {h : ε → Fallible Req Resp ε γ} {k : β → Fallible Req Resp ε γ} {e : ε}
    {p' : Fallible Req Resp ε γ} (chs₁ chs₂ : List Choice) {h₁ h₂ : List (Event Req Resp)}
    (hx : Prog.play perform x s chs₁ = some (.ret (.error e), s', h₁))
    (hh : Prog.play perform (h e) s' chs₂ = some (p', t, h₂)) :
    Prog.play perform (tryElse x h k) s (chs₁ ++ chs₂) = some (p', t, h₂ ++ h₁) :=
  Prog.play_bind chs₁ chs₂ hx hh

theorem Fallible.play_bind_ret {ε β γ : Type} {x : Fallible Req Resp ε β}
    {f : β → Fallible Req Resp ε γ} {b : β} {r : Except ε γ}
    (hx : Prog.play perform x s chs = some (.ret (.ok b), s', h)) (hf : f b = .ret r) :
    Prog.play perform (Bind.bind (m := Fallible Req Resp ε) x f) s chs = some (.ret r, s', h) := by
  have hret : Prog.play perform (f b) s' [] = some (.ret r, s', []) := by
    rw [hf]
    rfl
  have hrun := Fallible.play_bind chs [] hx hret
  rw [List.append_nil] at hrun
  exact hrun

/-- A replayed run is a run of every interface that answers as `perform` does. -/
theorem Prog.play_answered {I : Interface Req Resp σ}
    (hexec : ∀ s q ch r s', perform s q ch = some (r, s') → I.exec s q r s')
    (hp : p.play perform s chs = some (p', s', h)) : Steps I p s p' s' := by
  induction chs generalizing p s h with
  | nil =>
    cases p <;> cases hp <;> exact .refl _ _
  | cons ch chs ih =>
    cases p with
    | ret a => cases hp
    | call q k =>
      obtain ⟨r, s₁, h', hr, hk, -⟩ := Prog.play_call hp
      exact .step (hexec _ _ _ _ _ hr) (ih hk)

/-- Every run is one under some choices, where each answer is one under some choice. -/
theorem Prog.exists_play {I : Interface Req Resp σ}
    (hexec : ∀ s q r s', I.exec s q r s' → ∃ ch, perform s q ch = some (r, s'))
    (hrun : Steps I p s p' s') : ∃ chs h, p.play perform s chs = some (p', s', h) := by
  induction hrun with
  | refl p s => exact ⟨[], [], by cases p <;> rfl⟩
  | step he _ ih =>
    obtain ⟨ch, hr⟩ := hexec _ _ _ _ he
    obtain ⟨chs, h, hk⟩ := ih
    exact ⟨ch :: chs, _, Prog.play_step hr hk⟩

theorem Prog.play_steps {answers : (q : Req) → Resp q → Prop}
    (hans : ∀ s q ch r s', perform s q ch = some (r, s') → answers q r)
    (hp : p.play perform s chs = some (p', s', h)) (h₀ : List (Event Req Resp)) :
    Steps (recorder (fun _ _ => True) answers) p h₀ p' (h ++ h₀) := by
  induction chs generalizing p s h h₀ with
  | nil =>
    cases p <;> cases hp <;> exact .refl _ _
  | cons ch chs ih =>
    cases p with
    | ret a => cases hp
    | call q k =>
      obtain ⟨r, s₁, h', hr, hk, rfl⟩ := Prog.play_call hp
      have hrest := ih hk (⟨q, r⟩ :: h₀)
      rw [List.append_assoc]
      exact .step ⟨hans _ _ _ _ _ hr, rfl⟩ hrest

end Play

/-! ## Footprints -/

/-- A state as a family of cells, with the cells that each request uses. -/
structure Cells (Req Choice σ ι : Type) (Resp : Req → Type)
    (perform : σ → (q : Req) → Choice → Option (Resp q × σ)) where
  Val : ι → Type
  look : σ → (i : ι) → Val i
  reads : Req → Set ι
  writes : Req → Set ι
  determined : ∀ {s t}, (∀ i, look s i = look t i) → s = t
  frame : ∀ {s q ch r s'}, perform s q ch = some (r, s') → ∀ i ∉ writes q, look s' i = look s i
  depends : ∀ {s t q ch r s'}, (∀ i ∈ reads q, look s i = look t i) →
    perform s q ch = some (r, s') →
    ∃ t', perform t q ch = some (r, t') ∧
      ∀ i ∈ writes q, look s i = look t i → look s' i = look t' i

section Footprints

variable {Req Choice σ ι α β : Type} {Resp : Req → Type}
  {perform : σ → (q : Req) → Choice → Option (Resp q × σ)}
  (C : Cells Req Choice σ ι Resp perform)

/-- The states agree on the cells of `X`. -/
def Cells.Agree (X : Set ι) (s t : σ) : Prop := ∀ i ∈ X, C.look s i = C.look t i

/-- Every request of a history reads in `R` and writes in `W`. -/
def Cells.Within (R W : Set ι) (h : List (Event Req Resp)) : Prop :=
  ∀ v ∈ h, C.reads v.1 ⊆ R ∧ C.writes v.1 ⊆ W

variable {C} {p p' : Prog Req Resp α} {s s' t t' : σ} {chs : List Choice}
  {h : List (Event Req Resp)} {R W X : Set ι}

theorem Cells.Within.tail {v : Event Req Resp} (hw : C.Within R W (h ++ [v])) : C.Within R W h :=
  fun v' hv' => hw v' (List.mem_append_left _ hv')

theorem Cells.Within.last {v : Event Req Resp} (hw : C.Within R W (h ++ [v])) :
    C.reads v.1 ⊆ R ∧ C.writes v.1 ⊆ W := hw v (List.mem_append_right _ List.mem_cons_self)

/-- **Frame**: a run keeps the cells it does not write. -/
theorem Cells.play_frame (hp : p.play perform s chs = some (p', s', h)) (hw : C.Within R W h) :
    ∀ i ∉ W, C.look s' i = C.look s i := by
  induction chs generalizing p s h with
  | nil => cases p <;> cases hp <;> exact fun _ _ => rfl
  | cons ch chs ih =>
    cases p with
    | ret a => cases hp
    | call q k =>
      obtain ⟨r, s₁, h', hr, hk, rfl⟩ := Prog.play_call hp
      intro i hi
      have hstep := C.frame hr i fun hq => hi (hw.last.2 hq)
      rw [ih hk hw.tail i hi, hstep]

theorem Cells.perform_congr {q : Req} {ch : Choice} {r : Resp q}
    (hr : perform s q ch = some (r, s')) (hread : C.reads q ⊆ X) (ha : C.Agree X s t) :
    ∃ t', perform t q ch = some (r, t') ∧ C.Agree X s' t' := by
  obtain ⟨t', ht, hwrite⟩ := C.depends (fun i hi => ha i (hread hi)) hr
  refine ⟨t', ht, fun i hi => ?_⟩
  by_cases hq : i ∈ C.writes q
  · exact hwrite i hq (ha i hi)
  · rw [C.frame hr i hq, C.frame ht i hq]
    exact ha i hi

/-- **Locality**: a run goes the same way from a state that agrees on what it reads. -/
theorem Cells.play_congr (hp : p.play perform s chs = some (p', s', h)) (hw : C.Within R W h)
    (hR : R ⊆ X) (ha : C.Agree X s t) :
    ∃ t', p.play perform t chs = some (p', t', h) ∧ C.Agree X s' t' := by
  induction chs generalizing p s t h with
  | nil =>
    cases p <;> cases hp <;> exact ⟨t, rfl, ha⟩
  | cons ch chs ih =>
    cases p with
    | ret a => cases hp
    | call q k =>
      obtain ⟨r, s₁, h', hr, hk, rfl⟩ := Prog.play_call hp
      obtain ⟨t₁, ht, ha₁⟩ := C.perform_congr hr (hw.last.1.trans hR) ha
      obtain ⟨t', htk, ha'⟩ := ih hk hw.tail ha₁
      exact ⟨t', Prog.play_step ht htk, ha'⟩

/-- **Commutation**: two runs, neither of which writes what the other reads or writes, may be run in
either order. -/
theorem Cells.play_commute {q q' : Prog Req Resp β} {s₁ s₂ : σ} {chs' : List Choice}
    {h' : List (Event Req Resp)} {R' W' : Set ι} (hp : p.play perform s chs = some (p', s₁, h))
    (hq : q.play perform s₁ chs' = some (q', s₂, h')) (hw : C.Within R W h)
    (hw' : C.Within R' W' h') (hRW : Disjoint R W') (hRW' : Disjoint R' W) (hWW : Disjoint W W') :
    ∃ t₁, q.play perform s chs' = some (q', t₁, h') ∧
      p.play perform t₁ chs = some (p', s₂, h) := by
  have hs₁ : C.Agree (fun i => i ∉ W) s₁ s := fun i hi => C.play_frame hp hw i hi
  obtain ⟨t₁, hqt, ht₁⟩ := C.play_congr hq hw' (fun i hi => Set.disjoint_left.mp hRW' hi) hs₁
  have hst₁ : C.Agree (fun i => i ∉ W') s t₁ := fun i hi => (C.play_frame hqt hw' i hi).symm
  obtain ⟨t₂, hpt, ht₂⟩ := C.play_congr hp hw (fun i hi => Set.disjoint_left.mp hRW hi) hst₁
  refine ⟨t₁, hqt, ?_⟩
  have heq : t₂ = s₂ := by
    refine C.determined fun i => ?_
    by_cases hi : i ∈ W
    · have hi' : i ∉ W' := Set.disjoint_left.mp hWW hi
      rw [← ht₂ i hi', C.play_frame hq hw' i hi']
    · rw [C.play_frame hpt hw i hi]
      exact (ht₁ i hi).symm
  rw [hpt, heq]

end Footprints

/-! ## Two runs -/

/-- Which requests of two programs correspond, and then which of their answers do. -/
abbrev Pairing (Req : Type) (Resp : Req → Type) : Type :=
  (q q' : Req) → (Resp q → Resp q' → Prop) → Prop

/-- Programs that ask alike, go on alike after corresponding answers, and return related results. -/
inductive Prog.Alike {Req : Type} {Resp : Req → Type} (P : Pairing Req Resp) {α β : Type}
    (V : α → β → Prop) : Prog Req Resp α → Prog Req Resp β → Prop
  | ret {a : α} {b : β} (h : V a b) : Alike P V (.ret a) (.ret b)
  | call {q q' : Req} {A : Resp q → Resp q' → Prop} {k : Resp q → Prog Req Resp α}
      {k' : Resp q' → Prog Req Resp β} (hq : P q q' A)
      (hk : ∀ r r', A r r' → Alike P V (k r) (k' r')) : Alike P V (.call q k) (.call q' k')

section TwoRuns

variable {Req Choice σ ε α β γ δ : Type} {Resp : Req → Type} {P : Pairing Req Resp}
  {V : α → β → Prop} {W : γ → δ → Prop}

theorem Prog.Alike.bind {p : Prog Req Resp α} {p' : Prog Req Resp β}
    {f : α → Prog Req Resp γ} {f' : β → Prog Req Resp δ} (h : Alike P V p p')
    (hf : ∀ a b, V a b → Alike P W (f a) (f' b)) : Alike P W (p.bind f) (p'.bind f') := by
  induction h with
  | ret h => exact hf _ _ h
  | call hq _ ih => exact .call hq ih

/-- **Lockstep**: alike programs go the same way from related states under the same choices. -/
theorem Prog.Alike.play {perform : σ → (q : Req) → Choice → Option (Resp q × σ)}
    {T : σ → σ → Prop}
    (hstep : ∀ {q q' A s t ch r s'}, P q q' A → T s t → perform s q ch = some (r, s') →
      ∃ r' t', perform t q' ch = some (r', t') ∧ A r r' ∧ T s' t')
    {p p₁ : Prog Req Resp α} {p' : Prog Req Resp β} (h : Alike P V p p') {s t s₁ : σ}
    (ht : T s t) {chs : List Choice} {hist : List (Event Req Resp)}
    (hp : p.play perform s chs = some (p₁, s₁, hist)) :
    ∃ p₁' t₁ hist', p'.play perform t chs = some (p₁', t₁, hist') ∧ Alike P V p₁ p₁' ∧
      T s₁ t₁ := by
  induction chs generalizing p p' s t hist with
  | nil =>
    refine ⟨p', t, [], by cases p' <;> rfl, ?_⟩
    cases p <;> cases hp <;> exact ⟨h, ht⟩
  | cons ch chs ih =>
    cases h with
    | ret h => cases hp
    | call hq hk =>
      obtain ⟨r, s₂, h', hr, hplay, rfl⟩ := Prog.play_call hp
      obtain ⟨r', t₂, hr', hans, ht₂⟩ := hstep hq ht hr
      obtain ⟨p₁', t₁, hist', hplay', halike, ht₁⟩ := ih (hk r r' hans) ht₂ hplay
      exact ⟨p₁', t₁, _, Prog.play_step hr' hplay', halike, ht₁⟩

namespace Fallible

/-- Related values, or the same exception. -/
def Results (ε : Type) (V : α → β → Prop) : Except ε α → Except ε β → Prop
  | .ok a, .ok b => V a b
  | .error e, .error e' => e = e'
  | _, _ => False

/-- `Prog.Alike` for programs that raise the same exceptions. -/
def Alike (P : Pairing Req Resp) (V : α → β → Prop) (m : Fallible Req Resp ε α)
    (m' : Fallible Req Resp ε β) : Prop := Prog.Alike P (Results ε V) m m'

variable {m : Fallible Req Resp ε α} {m' : Fallible Req Resp ε β}

theorem Alike.pure {a : α} {b : β} (h : V a b) :
    Alike P V (pure a : Fallible Req Resp ε α) (Pure.pure b) := .ret h

theorem Alike.raise (e : ε) :
    Alike P V (raise e : Fallible Req Resp ε α) (Fallible.raise e : Fallible Req Resp ε β) :=
  .ret rfl

theorem Alike.ofExcept (x : Except ε α) :
    Alike P Eq (ofExcept x : Fallible Req Resp ε α) (Fallible.ofExcept x) := by
  refine .ret ?_
  cases x <;> rfl

theorem Alike.tryElse {h : ε → Fallible Req Resp ε γ} {k : α → Fallible Req Resp ε γ}
    {h' : ε → Fallible Req Resp ε δ} {k' : β → Fallible Req Resp ε δ} (hm : Alike P V m m')
    (hh : ∀ e, Alike P W (h e) (h' e)) (hk : ∀ a b, V a b → Alike P W (k a) (k' b)) :
    Alike P W (tryElse m h k) (tryElse m' h' k') := by
  refine Prog.Alike.bind hm fun r r' hr => ?_
  cases r with
  | ok a =>
    cases r' with
    | ok b => exact hk a b hr
    | error e => exact hr.elim
  | error e =>
    cases r' with
    | ok b => exact hr.elim
    | error e' =>
      obtain rfl : e = e' := hr
      exact hh e

theorem Alike.bind {f : α → Fallible Req Resp ε γ} {f' : β → Fallible Req Resp ε δ}
    (hm : Alike P V m m') (hf : ∀ a b, V a b → Alike P W (f a) (f' b)) :
    Alike P W (m >>= f) (m' >>= f') :=
  Alike.tryElse hm Alike.raise hf

theorem Alike.tryExcept {h : ε → Fallible Req Resp ε α} {h' : ε → Fallible Req Resp ε β}
    (hm : Alike P V m m') (hh : ∀ e, Alike P V (h e) (h' e)) :
    Alike P V (tryExcept m h) (tryExcept m' h') :=
  Alike.tryElse hm hh fun _ _ => .pure

theorem Alike.tryFinally {f f' : Fallible Req Resp ε Unit} {U : Unit → Unit → Prop}
    (hm : Alike P V m m') (hf : Alike P U f f') : Alike P V (tryFinally m f) (tryFinally m' f') := by
  refine hm.tryElse (fun e => ?_) fun a b hab => ?_
  · exact hf.tryElse .raise fun _ _ _ => .raise e
  · exact hf.tryElse .raise fun _ _ _ => .pure hab

theorem Alike.forEach {f : γ → Fallible Req Resp ε α} {f' : δ → Fallible Req Resp ε β}
    (hf : ∀ x y, W x y → Alike P V (f x) (f' y)) {xs : List γ} {ys : List δ}
    (hxs : List.Forall₂ W xs ys) :
    Alike P (List.Forall₂ V) (forEach f xs) (forEach f' ys) := by
  induction hxs with
  | nil => exact .pure .nil
  | cons hxy _ ih => exact (hf _ _ hxy).bind fun _ _ hab => ih.bind fun _ _ habs => .pure (.cons hab habs)

end Fallible

end TwoRuns

end PixelForge.Effects
