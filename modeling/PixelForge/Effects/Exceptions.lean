import PixelForge.Effects.Program

/-! # Programs that raise

`Fallible Req Resp ε α`: programs whose result is either a value or a raised `ε`, with the three
shapes of Python's `try`:

* `tryElse m h k`: `try: a = m` / `except e: return h(e)` / then `k(a)`, outside the `try`;
* `tryExcept m h`: the same with nothing after it;
* `tryFinally m f`: `f` runs on both exits, and a raise inside `f` replaces the outcome.

`Fallible.wp I m Q X s` has one postcondition for a returned value and one for a raise; `Keeps I J m`
has `J` for both and for the start; `Raises I E m` says that what `m` raises is in `E`; `Gets I m s s'`
says that `m` has a run from `s` to `s'`.
-/
set_option autoImplicit false

namespace PixelForge.Effects

universe u v x

/-- A program that returns an `α` or raises an `ε`. -/
def Fallible (Req : Type u) (Resp : Req → Type v) (ε α : Type) : Type (max u v) :=
  Prog Req Resp (Except ε α)

namespace Fallible

variable {Req : Type u} {Resp : Req → Type v} {ε α β : Type}

/-- Stop with `e`. -/
def raise (e : ε) : Fallible Req Resp ε α := .ret (.error e)

/-- Go on with a result that is there already. -/
def ofExcept (x : Except ε α) : Fallible Req Resp ε α := .ret x

/-- `try: a = m` / `except e: return h(e)`, and then `k(a)`. -/
def tryElse (m : Fallible Req Resp ε α) (h : ε → Fallible Req Resp ε β)
    (k : α → Fallible Req Resp ε β) : Fallible Req Resp ε β :=
  Prog.bind m fun
    | .ok a => k a
    | .error e => h e

instance : Monad (Fallible Req Resp ε) where
  pure a := .ret (.ok a)
  bind m f := tryElse m raise f

/-- `try: return m` / `except e: return h(e)`. -/
def tryExcept (m : Fallible Req Resp ε α) (h : ε → Fallible Req Resp ε α) :
    Fallible Req Resp ε α :=
  tryElse m h pure

/-- `try: return m` / `finally: f`. -/
def tryFinally (m : Fallible Req Resp ε α) (f : Fallible Req Resp ε Unit) :
    Fallible Req Resp ε α :=
  tryElse m (fun e => tryElse f raise fun _ => raise e) fun a => tryElse f raise fun _ => pure a

/-- `[f(x) for x in xs]`, left to right. -/
def forEach {γ : Type} (f : γ → Fallible Req Resp ε α) : List γ → Fallible Req Resp ε (List α)
  | [] => pure []
  | x :: xs => do
    let a ← f x
    let as ← forEach f xs
    pure (a :: as)

/-! ## Weakest preconditions -/

section Wp

variable {σ : Type x} {I : Interface Req Resp σ}

/-- `Prog.wp` with the two ways of ending told apart. -/
def wp (I : Interface Req Resp σ) (m : Fallible Req Resp ε α) (Q : α → σ → Prop)
    (X : ε → σ → Prop) (s : σ) : Prop :=
  Prog.wp I m (fun
    | .ok a => Q a
    | .error e => X e) s

variable {Q : α → σ → Prop} {X : ε → σ → Prop} {s : σ}

@[simp] theorem wp_pure (a : α) :
    wp I (pure a : Fallible Req Resp ε α) Q X s ↔ Q a s := Iff.rfl

@[simp] theorem wp_raise (e : ε) :
    wp I (raise e : Fallible Req Resp ε α) Q X s ↔ X e s := Iff.rfl

theorem wp_ofExcept {x : Except ε α} (hok : ∀ a, x = .ok a → Q a s) (herr : ∀ e, x = .error e → X e s) :
    wp I (ofExcept x : Fallible Req Resp ε α) Q X s := by
  cases x with
  | ok a => exact hok a rfl
  | error e => exact herr e rfl

@[simp] theorem wp_tryElse (m : Fallible Req Resp ε α) (h : ε → Fallible Req Resp ε β)
    (k : α → Fallible Req Resp ε β) (Q : β → σ → Prop) :
    wp I (tryElse m h k) Q X s ↔
      wp I m (fun a s' => wp I (k a) Q X s') (fun e s' => wp I (h e) Q X s') s := by
  refine (Effects.wp_bind _ _ _ s).trans (iff_of_eq (congrArg (fun R => Prog.wp I m R s) ?_))
  funext r s'
  cases r <;> rfl

@[simp] theorem wp_bind (m : Fallible Req Resp ε α) (f : α → Fallible Req Resp ε β)
    (Q : β → σ → Prop) :
    wp I (m >>= f) Q X s ↔ wp I m (fun a s' => wp I (f a) Q X s') X s :=
  wp_tryElse m raise f Q

@[simp] theorem wp_tryExcept (m : Fallible Req Resp ε α) (h : ε → Fallible Req Resp ε α) :
    wp I (tryExcept m h) Q X s ↔ wp I m Q (fun e s' => wp I (h e) Q X s') s :=
  wp_tryElse m h pure Q

@[simp] theorem wp_tryFinally (m : Fallible Req Resp ε α) (f : Fallible Req Resp ε Unit) :
    wp I (tryFinally m f) Q X s ↔
      wp I m (fun a s' => wp I f (fun _ => Q a) X s')
        (fun e s' => wp I f (fun _ => X e) X s') s := by
  unfold tryFinally
  simp only [wp_tryElse, wp_raise, wp_pure]

theorem wp_mono {m : Fallible Req Resp ε α} {Q' : α → σ → Prop} {X' : ε → σ → Prop}
    (h : wp I m Q X s) (hQ : ∀ a s', Q a s' → Q' a s') (hX : ∀ e s', X e s' → X' e s') :
    wp I m Q' X' s := by
  refine Effects.wp_mono h fun r s' hr => ?_
  cases r with
  | ok a => exact hQ a s' hr
  | error e => exact hX e s' hr

/-- A loop over a list: `J` holds of the results so far and the items still to come. -/
theorem wp_forEach {γ : Type} {f : γ → Fallible Req Resp ε α} {J : List α → List γ → σ → Prop}
    (xs : List γ)
    (hstep : ∀ done x rest s', J done (x :: rest) s' →
      wp I (f x) (fun a => J (done ++ [a]) rest) X s') :
    ∀ (done : List α) (s : σ), J done xs s →
      wp I (forEach f xs) (fun as => J (done ++ as) []) X s := by
  induction xs with
  | nil =>
    intro done s hJ
    simpa [forEach] using hJ
  | cons x xs ih =>
    intro done s hJ
    simp only [forEach, wp_bind]
    refine wp_mono (hstep done x xs s hJ) (fun a s' hJ' => ?_) (fun _ _ h => h)
    refine wp_mono (ih (done ++ [a]) s' hJ') (fun as s'' h => ?_) (fun _ _ h => h)
    simpa only [wp_pure, List.append_assoc, List.singleton_append] using h

end Wp

/-! ## Invariants -/

section Keeps

variable {σ : Type x} {I : Interface Req Resp σ} {J : σ → Prop} {m : Fallible Req Resp ε α}

/-- `m` keeps `J`, on both ways of ending. -/
def Keeps (I : Interface Req Resp σ) (J : σ → Prop) (m : Fallible Req Resp ε α) : Prop :=
  ∀ s, J s → wp I m (fun _ => J) (fun _ => J) s

theorem Keeps.pure (a : α) : Keeps I J (pure a : Fallible Req Resp ε α) := fun _ hs => hs

theorem Keeps.raise (e : ε) : Keeps I J (raise e : Fallible Req Resp ε α) := fun _ hs => hs

theorem Keeps.ofExcept (x : Except ε α) : Keeps I J (ofExcept x : Fallible Req Resp ε α) := by
  intro s hs
  cases x <;> exact hs

theorem Keeps.tryElse {h : ε → Fallible Req Resp ε β} {k : α → Fallible Req Resp ε β}
    (hm : Keeps I J m) (hh : ∀ e, Keeps I J (h e)) (hk : ∀ a, Keeps I J (k a)) :
    Keeps I J (tryElse m h k) := fun s hs =>
  (wp_tryElse m h k _).mpr (wp_mono (hm s hs) (fun a s' => hk a s') fun e s' => hh e s')

theorem Keeps.bind {f : α → Fallible Req Resp ε β} (hm : Keeps I J m)
    (hf : ∀ a, Keeps I J (f a)) : Keeps I J (Bind.bind (m := Fallible Req Resp ε) m f) :=
  hm.tryElse Keeps.raise hf

theorem Keeps.tryExcept {h : ε → Fallible Req Resp ε α} (hm : Keeps I J m)
    (hh : ∀ e, Keeps I J (h e)) : Keeps I J (tryExcept m h) := hm.tryElse hh Keeps.pure

theorem Keeps.tryFinally {f : Fallible Req Resp ε Unit} (hm : Keeps I J m) (hf : Keeps I J f) :
    Keeps I J (tryFinally m f) :=
  hm.tryElse (fun e => hf.tryElse Keeps.raise fun _ => .raise e) fun a =>
    hf.tryElse Keeps.raise fun _ => .pure a

theorem Keeps.forEach {γ : Type} {f : γ → Fallible Req Resp ε α} (hf : ∀ x, Keeps I J (f x))
    (xs : List γ) : Keeps I J (forEach f xs) := by
  induction xs with
  | nil => exact .pure []
  | cons x xs ih => exact (hf x).bind fun a => ih.bind fun as => .pure (a :: as)

end Keeps

section Raises

variable {σ : Type x} {I : Interface Req Resp σ} {E F : ε → Prop} {m : Fallible Req Resp ε α}

/-- Whatever `m` raises is in `E`. -/
def Raises (I : Interface Req Resp σ) (E : ε → Prop) (m : Fallible Req Resp ε α) : Prop :=
  ∀ s, wp I m (fun _ _ => True) (fun e _ => E e) s

theorem Raises.pure (a : α) : Raises I E (pure a : Fallible Req Resp ε α) := fun _ => trivial

theorem Raises.raise {e : ε} (he : E e) : Raises I E (raise e : Fallible Req Resp ε α) := fun _ => he

theorem Raises.tryElse {h : ε → Fallible Req Resp ε β} {k : α → Fallible Req Resp ε β}
    (hm : Raises I F m) (hh : ∀ e, F e → Raises I E (h e)) (hk : ∀ a, Raises I E (k a)) :
    Raises I E (tryElse m h k) := fun s =>
  (wp_tryElse m h k _).mpr (wp_mono (hm s) (fun a s' _ => hk a s') fun e s' he => hh e he s')

theorem Raises.bind {f : α → Fallible Req Resp ε β} (hm : Raises I E m)
    (hf : ∀ a, Raises I E (f a)) : Raises I E (Bind.bind (m := Fallible Req Resp ε) m f) :=
  hm.tryElse (fun _ he => .raise he) hf

theorem Raises.tryExcept {h : ε → Fallible Req Resp ε α} (hm : Raises I F m)
    (hh : ∀ e, F e → Raises I E (h e)) : Raises I E (tryExcept m h) := hm.tryElse hh Raises.pure

theorem Raises.mono (hm : Raises I F m) (h : ∀ e, F e → E e) : Raises I E m := fun s =>
  wp_mono (hm s) (fun _ _ h => h) fun e _ => h e

end Raises

/-! ## Runs -/

section Runs

variable {σ : Type x} {I : Interface Req Resp σ} {s s' s'' : σ}

theorem steps_tryElse_ok {m : Fallible Req Resp ε α} {h : ε → Fallible Req Resp ε β}
    {k : α → Fallible Req Resp ε β} {a : α} {p : Fallible Req Resp ε β}
    (hm : Steps I m s (.ret (.ok a)) s') (hk : Steps I (k a) s' p s'') :
    Steps I (tryElse m h k) s p s'' := (hm.bind _).trans hk

/-- `m` in `s` may get to the state `s'`. -/
def Gets (I : Interface Req Resp σ) (m : Fallible Req Resp ε α) (s s' : σ) : Prop :=
  ∃ p, Steps I m s p s'

theorem Gets.tryElse {m : Fallible Req Resp ε α} (hm : Gets I m s s')
    (h : ε → Fallible Req Resp ε β) (k : α → Fallible Req Resp ε β) :
    Gets I (tryElse m h k) s s' := by
  obtain ⟨p, hp⟩ := hm
  exact ⟨_, hp.bind _⟩

theorem gets_tryElse_ok {m : Fallible Req Resp ε α} {h : ε → Fallible Req Resp ε β}
    {k : α → Fallible Req Resp ε β} {a : α} (hm : Steps I m s (.ret (.ok a)) s')
    (hk : Gets I (k a) s' s'') : Gets I (tryElse m h k) s s'' := by
  obtain ⟨p, hp⟩ := hk
  exact ⟨p, steps_tryElse_ok hm hp⟩

end Runs

end Fallible

end PixelForge.Effects
