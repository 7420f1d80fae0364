import PixelForge.Effects.Exceptions
import PixelForge.Effects.Interleaving

/-! # Resources that are taken and given back

A `Custody` says which answered requests take a resource and which give one back, and with which
resources in hand a request is in order. `Custody.held` reads the resources in hand off a history, the
latest first.

* `Fallible.Keeps.bracket`: take, use, give back on both exits.
* `Custody.Orderly h`: every request of the history was in order.
* `Orderly.count`: what was taken and is not in hand was given back.
* `Reach.orderly`: a process of a machine whose discipline is a custody is orderly in every run.
-/
set_option autoImplicit false

namespace PixelForge.Effects

universe u v x

section Bracket

variable {Req : Type u} {Resp : Req → Type v} {ε α β : Type} {σ : Type x} {I : Interface Req Resp σ}
  {J J' : σ → Prop}

/-- `J` holds without the resource and `J'` with it: what keeps `J'` inside keeps `J` outside. -/
theorem Fallible.Keeps.bracket {acquire : Fallible Req Resp ε β} {body : β → Fallible Req Resp ε α}
    {release : Fallible Req Resp ε Unit}
    (hacquire : ∀ s, J s → Fallible.wp I acquire (fun _ => J') (fun _ => J) s)
    (hbody : ∀ b, Fallible.Keeps I J' (body b))
    (hrelease : ∀ s, J' s → Fallible.wp I release (fun _ => J) (fun _ => J) s) :
    Fallible.Keeps I J (do
      let b ← acquire
      Fallible.tryFinally (body b) release) := by
  intro s hs
  refine (Fallible.wp_bind _ _ _).mpr (Fallible.wp_mono (hacquire s hs) (fun b s' hs' => ?_) fun _ _ h => h)
  refine (Fallible.wp_tryFinally _ _).mpr (Fallible.wp_mono (hbody b s' hs') ?_ ?_)
  · exact fun _ s'' hs'' => hrelease s'' hs''
  · exact fun _ s'' hs'' => hrelease s'' hs''

end Bracket

/-- Which requests take and give back the resources `ρ`. Only what was taken last is given back. -/
structure Custody (Req : Type) (Resp : Req → Type) (ρ : Type) where
  takes : Event Req Resp → Option ρ
  gives : Event Req Resp → Option ρ
  inOrder : List ρ → Req → Prop
  last : ∀ {held v r}, inOrder held v.1 → gives v = some r → takes v = none ∧ held.head? = some r

namespace Custody

variable {Req : Type} {Resp : Req → Type} {ρ : Type} (C : Custody Req Resp ρ)

def note (v : Event Req Resp) (held : List ρ) : List ρ :=
  match C.takes v with
  | some r => r :: held
  | none => if (C.gives v).isSome then held.tail else held

/-- What is in hand after the history. -/
def held (h : List (Event Req Resp)) : List ρ := h.foldr C.note []

/-- The interface that only keeps track of what is in hand. -/
abbrev tracked (answers : (q : Req) → Resp q → Prop) : Interface Req Resp (List ρ) :=
  monitor C.note C.inOrder answers

/-- Every request of the history was in order. -/
inductive Orderly : List (Event Req Resp) → Prop
  | nil : Orderly []
  | cons {v : Event Req Resp} {h : List (Event Req Resp)} (hv : C.inOrder (C.held h) v.1)
      (hrest : Orderly h) : Orderly (v :: h)

variable {C} {h : List (Event Req Resp)} {v : Event Req Resp} {r : ρ}

theorem held_cons : C.held (v :: h) = C.note v (C.held h) := rfl

theorem note_take {held : List ρ} (ht : C.takes v = some r) : C.note v held = r :: held := by
  rw [note, ht]

theorem note_give {held : List ρ} (hin : C.inOrder held v.1) (hg : C.gives v = some r) :
    C.note v held = held.tail := by
  rw [note, (C.last hin hg).1, hg]
  rfl

theorem note_quiet {held : List ρ} (ht : C.takes v = none) (hg : C.gives v = none) :
    C.note v held = held := by
  rw [note, ht, hg]
  rfl

/-- **What was taken is in hand or was given back.** -/
theorem Orderly.count [DecidableEq ρ] (ho : C.Orderly h) (r : ρ) :
    h.countP (fun v => C.takes v = some r) =
      h.countP (fun v => C.gives v = some r) + (C.held h).count r := by
  induction ho with
  | nil => rfl
  | @cons v h hv _ ih =>
    rw [List.countP_cons, List.countP_cons, held_cons, ih]
    cases ht : C.takes v with
    | some r' =>
      have hg : C.gives v = none := by
        by_contra hne
        obtain ⟨r'', hr''⟩ := Option.ne_none_iff_exists'.mp hne
        rw [(C.last hv hr'').1] at ht
        cases ht
      rw [note_take ht, hg, List.count_cons]
      simp
      omega
    | none =>
      cases hg : C.gives v with
      | none =>
        rw [note_quiet ht hg]
        simp
      | some r' =>
        obtain ⟨rest, hrest⟩ := List.head?_eq_some_iff.mp (C.last hv hg).2
        rw [note_give hv hg, hrest, List.tail_cons, List.count_cons]
        simp
        omega

end Custody

/-- The history of a process whose discipline is a custody. -/
theorem Machine.Reach.orderly {Proc Req Choice Move σ α ρ : Type} {Resp : Req → Type}
    [DecidableEq Proc] {M : Machine Proc Req Choice Move σ α Resp} {G : Guard Proc Req Choice σ Resp}
    {s₀ : σ} {c : Snapshot Proc Req Choice σ α Resp} {C : Custody Req Resp ρ} {i : Proc}
    (D : Discipline M) (hmay : ∀ h q, D.may i h q → C.inOrder (C.held h) q)
    (h : M.Reach G (initial s₀) c) : C.Orderly (history i c.log) := by
  suffices hall : ∀ later earlier, c.log = later ++ earlier → C.Orderly (history i earlier) from
    hall [] c.log rfl
  intro later earlier
  induction earlier generalizing later with
  | nil => exact fun _ => .nil
  | cons e earlier ih =>
    intro hlog
    have hrest := ih (later ++ [e]) (by rw [hlog, List.append_assoc, List.singleton_append])
    by_cases hwho : e.who = i
    · subst hwho
      rw [history_cons_self]
      exact .cons (v := ⟨e.req, e.resp⟩) (hmay _ _ (h.entry D hlog).1) hrest
    · rwa [history_cons_ne hwho]

end PixelForge.Effects
