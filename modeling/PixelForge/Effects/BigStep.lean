import Mathlib.Data.List.Forall2
import PixelForge.Effects.Exceptions

/-! # How a program may end

`Fallible.Ends I m s r s'`: some run of `m` from `s` ends with `r` in `s'`. One rule for each way of
composing programs says exactly how the whole may end from how the parts may. `Simulated I J m m'` says
that `m'`, over a signature of its own, may end in every way that `m` may.
-/
set_option autoImplicit false

namespace PixelForge.Effects

universe u v x

section Programs

variable {Req : Type u} {Resp : Req → Type v} {α β : Type} {σ : Type x}
  {I : Interface Req Resp σ} {s s' s'' : σ}

theorem steps_ret_iff {a : α} {p : Prog Req Resp α} :
    Steps I (.ret a) s p s' ↔ p = .ret a ∧ s' = s := by
  constructor
  · intro h
    cases h
    exact ⟨rfl, rfl⟩
  · rintro ⟨rfl, rfl⟩
    exact .refl _ _

theorem steps_call_iff {q : Req} {k : Resp q → Prog Req Resp α} {a : α} :
    Steps I (.call q k) s (.ret a) s'' ↔ ∃ r s', I.exec s q r s' ∧ Steps I (k r) s' (.ret a) s'' := by
  constructor
  · intro h
    cases h with
    | step he h => exact ⟨_, _, he, h⟩
  · rintro ⟨r, s', he, h⟩
    exact .step he h

/-- A run of a sequence is a run of the first part and a run of the second. -/
theorem steps_bind_iff {p : Prog Req Resp α} {f : α → Prog Req Resp β} {b : β} :
    Steps I (p.bind f) s (.ret b) s'' ↔
      ∃ a s', Steps I p s (.ret a) s' ∧ Steps I (f a) s' (.ret b) s'' := by
  constructor
  · intro h
    induction p generalizing s with
    | ret a => exact ⟨a, s, .refl _ _, h⟩
    | call q k ih =>
      obtain ⟨r, s₁, he, h⟩ := steps_call_iff.mp h
      obtain ⟨a, s', hk, hf⟩ := ih r h
      exact ⟨a, s', .step he hk, hf⟩
  · rintro ⟨a, s', hp, hf⟩
    exact (hp.bind f).trans hf

theorem wp_of_steps (hmay : ∀ s q, I.may s q) {p : Prog Req Resp α} {Q : α → σ → Prop}
    (h : ∀ a s', Steps I p s (.ret a) s' → Q a s') : Prog.wp I p Q s := by
  induction p generalizing s with
  | ret a => exact h a s (.refl _ _)
  | call q k ih =>
    exact ⟨hmay s q, fun r s₁ he => ih r fun a s' hk => h a s' (.step he hk)⟩

end Programs

namespace Fallible

variable {Req : Type u} {Resp : Req → Type v} {ε α β γ : Type} {σ : Type x}
  {I : Interface Req Resp σ} {s s' s'' : σ} {m : Fallible Req Resp ε α}

/-- Some run of `m` from `s` ends with `r` in `s'`. -/
def Ends (I : Interface Req Resp σ) (m : Fallible Req Resp ε α) (s : σ) (r : Except ε α)
    (s' : σ) : Prop := Steps I m s (.ret r) s'

theorem wp_of_ends (hmay : ∀ s q, I.may s q) {Q : α → σ → Prop} {X : ε → σ → Prop}
    (hok : ∀ a s', Ends I m s (.ok a) s' → Q a s')
    (herr : ∀ e s', Ends I m s (.error e) s' → X e s') : wp I m Q X s :=
  wp_of_steps hmay fun r s' h => by
    cases r with
    | ok a => exact hok a s' h
    | error e => exact herr e s' h

@[simp] theorem ends_pure_iff {a : α} {r : Except ε α} :
    Ends I (pure a : Fallible Req Resp ε α) s r s' ↔ r = .ok a ∧ s' = s := by
  refine steps_ret_iff.trans (and_congr_left fun _ => ⟨fun h => ?_, fun h => ?_⟩)
  · exact Prog.ret.inj h
  · rw [h]

@[simp] theorem ends_raise_iff {e : ε} {r : Except ε α} :
    Ends I (raise e : Fallible Req Resp ε α) s r s' ↔ r = .error e ∧ s' = s := by
  refine steps_ret_iff.trans (and_congr_left fun _ => ⟨fun h => ?_, fun h => ?_⟩)
  · exact Prog.ret.inj h
  · rw [h]

theorem ends_ofExcept_iff {x r : Except ε α} :
    Ends I (ofExcept x : Fallible Req Resp ε α) s r s' ↔ r = x ∧ s' = s := by
  refine steps_ret_iff.trans (and_congr_left fun _ => ⟨fun h => ?_, fun h => ?_⟩)
  · exact Prog.ret.inj h
  · exact h ▸ rfl

theorem ends_tryElse_iff {h : ε → Fallible Req Resp ε β} {k : α → Fallible Req Resp ε β}
    {r : Except ε β} : Ends I (tryElse m h k) s r s'' ↔
      (∃ a s', Ends I m s (.ok a) s' ∧ Ends I (k a) s' r s'') ∨
      ∃ e s', Ends I m s (.error e) s' ∧ Ends I (h e) s' r s'' := by
  refine steps_bind_iff.trans ⟨?_, ?_⟩
  · rintro ⟨a | e, s', hm, hk⟩
    · exact .inr ⟨a, s', hm, hk⟩
    · exact .inl ⟨e, s', hm, hk⟩
  · rintro (⟨a, s', hm, hk⟩ | ⟨e, s', hm, hk⟩)
    · exact ⟨.ok a, s', hm, hk⟩
    · exact ⟨.error e, s', hm, hk⟩

theorem ends_bind_iff {f : α → Fallible Req Resp ε β} {r : Except ε β} :
    Ends I (Bind.bind (m := Fallible Req Resp ε) m f) s r s'' ↔
      (∃ a s', Ends I m s (.ok a) s' ∧ Ends I (f a) s' r s'') ∨
      ∃ e, Ends I m s (.error e) s'' ∧ r = .error e := by
  refine ends_tryElse_iff.trans (or_congr_right ⟨?_, ?_⟩)
  · rintro ⟨e, s', hm, hr⟩
    obtain ⟨rfl, rfl⟩ := ends_raise_iff.mp hr
    exact ⟨e, hm, rfl⟩
  · rintro ⟨e, hm, rfl⟩
    exact ⟨e, s'', hm, ends_raise_iff.mpr ⟨rfl, rfl⟩⟩

theorem ends_tryElse_of {h : ε → Fallible Req Resp ε β} {k : α → Fallible Req Resp ε β}
    {r : Except ε β} {a : α} (hm : ∀ r t, Ends I m s r t ↔ r = .ok a ∧ t = s') :
    Ends I (tryElse m h k) s r s'' ↔ Ends I (k a) s' r s'' := by
  rw [ends_tryElse_iff]
  constructor
  · rintro (⟨b, t, hb, hk⟩ | ⟨e, t, he, -⟩)
    · obtain ⟨hb, rfl⟩ := (hm _ _).mp hb
      obtain rfl := Except.ok.inj hb
      exact hk
    · cases ((hm _ _).mp he).1
  · exact fun hk => .inl ⟨a, s', (hm _ _).mpr ⟨rfl, rfl⟩, hk⟩

theorem ends_bind_of {f : α → Fallible Req Resp ε β} {r : Except ε β} {a : α}
    (hm : ∀ r t, Ends I m s r t ↔ r = .ok a ∧ t = s') :
    Ends I (Bind.bind (m := Fallible Req Resp ε) m f) s r s'' ↔ Ends I (f a) s' r s'' :=
  ends_tryElse_of hm

theorem ends_tryFinally_of {f : Fallible Req Resp ε Unit} {r : Except ε α}
    (hf : ∀ t r' t', Ends I f t r' t' ↔ r' = .ok () ∧ t' = t) :
    Ends I (tryFinally m f) s r s' ↔ Ends I m s r s' := by
  have hthen : ∀ (g : Unit → Fallible Req Resp ε α) t, Ends I (tryElse f raise g) t r s' ↔
      Ends I (g ()) t r s' := fun g t => ends_bind_of (hf t)
  unfold tryFinally
  rw [ends_tryElse_iff]
  constructor
  · rintro (⟨a, t, hm, hk⟩ | ⟨e, t, hm, hk⟩)
    · obtain ⟨rfl, rfl⟩ := ends_pure_iff.mp ((hthen _ _).mp hk)
      exact hm
    · obtain ⟨rfl, rfl⟩ := ends_raise_iff.mp ((hthen _ _).mp hk)
      exact hm
  · intro hm
    cases r with
    | ok a => exact .inl ⟨a, s', hm, (hthen _ _).mpr (ends_pure_iff.mpr ⟨rfl, rfl⟩)⟩
    | error e => exact .inr ⟨e, s', hm, (hthen _ _).mpr (ends_raise_iff.mpr ⟨rfl, rfl⟩)⟩

theorem ends_forEach_cons {f : γ → Fallible Req Resp ε α} {x : γ} {xs : List γ}
    {r : Except ε (List α)} : Ends I (forEach f (x :: xs)) s r s'' ↔
      (∃ a s', Ends I (f x) s (.ok a) s' ∧
        ((∃ as, Ends I (forEach f xs) s' (.ok as) s'' ∧ r = .ok (a :: as)) ∨
          ∃ e, Ends I (forEach f xs) s' (.error e) s'' ∧ r = .error e)) ∨
      ∃ e, Ends I (f x) s (.error e) s'' ∧ r = .error e := by
  refine ends_bind_iff.trans (or_congr_left (exists_congr fun a => exists_congr fun s' =>
    and_congr_right fun _ => ends_bind_iff.trans (or_congr_left ⟨?_, ?_⟩)))
  · rintro ⟨as, t, has, hr⟩
    obtain ⟨rfl, rfl⟩ := ends_pure_iff.mp hr
    exact ⟨as, has, rfl⟩
  · rintro ⟨as, has, rfl⟩
    exact ⟨as, s'', has, ends_pure_iff.mpr ⟨rfl, rfl⟩⟩

/-- How a loop returns: `R x a` are the values a turn may return, `next` is what it does to the
state. -/
theorem ends_forEach_ok {f : γ → Fallible Req Resp ε α} {R : γ → α → Prop} {next : σ → γ → σ}
    (hf : ∀ x s a s', Ends I (f x) s (.ok a) s' ↔ R x a ∧ s' = next s x) {xs : List γ}
    {as : List α} : Ends I (forEach f xs) s (.ok as) s' ↔
      List.Forall₂ R xs as ∧ s' = xs.foldl next s := by
  induction xs generalizing s as with
  | nil =>
    rw [forEach, ends_pure_iff, List.forall₂_nil_left_iff, Except.ok.injEq]
    rfl
  | cons x xs ih =>
    rw [ends_forEach_cons]
    constructor
    · rintro (⟨a, t, ha, ⟨bs, hbs, hr⟩ | ⟨e, -, hr⟩⟩ | ⟨e, -, hr⟩)
      · obtain rfl := Except.ok.inj hr
        obtain ⟨hR, rfl⟩ := (hf _ _ _ _).mp ha
        obtain ⟨hRs, rfl⟩ := ih.mp hbs
        exact ⟨.cons hR hRs, rfl⟩
      · cases hr
      · cases hr
    · rintro ⟨hRs, rfl⟩
      obtain ⟨a, bs, hR, hbs, rfl⟩ := List.forall₂_cons_left_iff.mp hRs
      exact .inl ⟨a, next s x, (hf _ _ _ _).mpr ⟨hR, rfl⟩, .inl ⟨bs, ih.mpr ⟨hbs, rfl⟩, rfl⟩⟩

/-- A loop raises what one of its turns raises, in a state that the turns before it kept. -/
theorem ends_forEach_error {f : γ → Fallible Req Resp ε α} {J : σ → Prop}
    (hkeep : ∀ x s a s', J s → Ends I (f x) s (.ok a) s' → J s') {xs : List γ} {e : ε} (hs : J s)
    (h : Ends I (forEach f xs) s (.error e) s') :
    ∃ x ∈ xs, ∃ t, J t ∧ Ends I (f x) t (.error e) s' := by
  induction xs generalizing s with
  | nil => cases (ends_pure_iff.mp h).1
  | cons x xs ih =>
    obtain ⟨a, t, ha, ⟨as, -, hr⟩ | ⟨e', hrest, hr⟩⟩ | ⟨e', hx, hr⟩ := ends_forEach_cons.mp h
    · cases hr
    · obtain rfl := Except.error.inj hr
      obtain ⟨y, hy, hend⟩ := ih (hkeep x s a t hs ha) hrest
      exact ⟨y, List.mem_cons_of_mem _ hy, hend⟩
    · obtain rfl := Except.error.inj hr
      exact ⟨x, List.mem_cons_self, s, hs, hx⟩

end Fallible

/-! ## Programs over two signatures -/

namespace Fallible

section Simulation

variable {Req Req' : Type u} {Resp : Req → Type v} {Resp' : Req' → Type v} {ε α β γ : Type}
  {σ τ : Type x} {I : Interface Req Resp σ} {J : Interface Req' Resp' τ}
  {m : Fallible Req Resp ε α} {m' : Fallible Req' Resp' ε α}

/-- However `m` may end, `m'` may end, from any state. -/
def Simulated (I : Interface Req Resp σ) (J : Interface Req' Resp' τ) (m : Fallible Req Resp ε α)
    (m' : Fallible Req' Resp' ε α) : Prop :=
  ∀ s r s', Ends I m s r s' → ∀ t, ∃ t', Ends J m' t r t'

theorem Simulated.pure (a : α) :
    Simulated I J (pure a : Fallible Req Resp ε α) (pure a : Fallible Req' Resp' ε α) := by
  intro s r s' h t
  obtain ⟨rfl, -⟩ := ends_pure_iff.mp h
  exact ⟨t, ends_pure_iff.mpr ⟨rfl, rfl⟩⟩

theorem Simulated.raise (e : ε) :
    Simulated I J (raise e : Fallible Req Resp ε α) (raise e : Fallible Req' Resp' ε α) := by
  intro s r s' h t
  obtain ⟨rfl, -⟩ := ends_raise_iff.mp h
  exact ⟨t, ends_raise_iff.mpr ⟨rfl, rfl⟩⟩

theorem Simulated.ofExcept (x : Except ε α) :
    Simulated I J (ofExcept x : Fallible Req Resp ε α) (ofExcept x : Fallible Req' Resp' ε α) := by
  intro s r s' h t
  obtain ⟨rfl, -⟩ := ends_ofExcept_iff.mp h
  exact ⟨t, ends_ofExcept_iff.mpr ⟨rfl, rfl⟩⟩

theorem Simulated.tryElse {h : ε → Fallible Req Resp ε β} {k : α → Fallible Req Resp ε β}
    {h' : ε → Fallible Req' Resp' ε β} {k' : α → Fallible Req' Resp' ε β}
    (hm : Simulated I J m m') (hh : ∀ e, Simulated I J (h e) (h' e))
    (hk : ∀ a, Simulated I J (k a) (k' a)) :
    Simulated I J (Fallible.tryElse m h k) (Fallible.tryElse m' h' k') := by
  intro s r s'' hend t
  obtain ⟨a, s', ha, hend⟩ | ⟨e, s', he, hend⟩ := ends_tryElse_iff.mp hend
  · obtain ⟨t', ha'⟩ := hm s _ s' ha t
    obtain ⟨t'', hend'⟩ := hk a s' r s'' hend t'
    exact ⟨t'', ends_tryElse_iff.mpr (.inl ⟨a, t', ha', hend'⟩)⟩
  · obtain ⟨t', he'⟩ := hm s _ s' he t
    obtain ⟨t'', hend'⟩ := hh e s' r s'' hend t'
    exact ⟨t'', ends_tryElse_iff.mpr (.inr ⟨e, t', he', hend'⟩)⟩

theorem Simulated.bind {f : α → Fallible Req Resp ε β} {f' : α → Fallible Req' Resp' ε β}
    (hm : Simulated I J m m') (hf : ∀ a, Simulated I J (f a) (f' a)) :
    Simulated I J (Bind.bind (m := Fallible Req Resp ε) m f)
      (Bind.bind (m := Fallible Req' Resp' ε) m' f') := hm.tryElse .raise hf

theorem Simulated.forEach {f : γ → Fallible Req Resp ε α} {f' : γ → Fallible Req' Resp' ε α}
    (hf : ∀ x, Simulated I J (f x) (f' x)) (xs : List γ) :
    Simulated I J (Fallible.forEach f xs) (Fallible.forEach f' xs) := by
  induction xs with
  | nil => exact .pure []
  | cons x xs ih => exact (hf x).bind fun a => ih.bind fun as => .pure (a :: as)

end Simulation

end Fallible

end PixelForge.Effects
