import Mathlib.Order.Interval.Set.UnorderedInterval
import PixelForge.Effects.BigStep
import PixelForge.Shared.Retry

/-! # The retry ladder, outcome by outcome

`Scripted I func outcomes`: surroundings in which the `i`th call of `func`, counted from 0, has the
outcome `outcomes i`. `ladder_spec` says how often `call_with_retry` then calls it, how often and how
long it sleeps, and what comes out, for a policy that is `Sane`.
-/
set_option autoImplicit false

namespace PixelForge
open Effects Fallible

/-- What a ladder has done: the calls of `func`, and the sleeps, earliest first. -/
structure Climb where
  calls : Nat
  sleeps : List Rat

def sleepLengthError : Exc := .python .valueError "sleep length must be non-negative"

/-- `random.uniform` draws between its bounds, whichever is the larger; `time.sleep` takes no negative
number. -/
structure Scripted {α : Type} (I : Interface Request Request.Resp Climb) (func : Py α)
    (outcomes : Nat → Except Exc α) : Prop where
  may : ∀ c q, I.may c q
  call : ∀ {c r c'}, Ends I func c r c' ↔ r = outcomes c.calls ∧ c' = ⟨c.calls + 1, c.sleeps⟩
  draw : ∀ {c high} {r : Except Exc Rat} {c'}, I.exec c (.uniform high) r c' ↔
    ∃ x ∈ Set.uIcc 0 high, r = .ok x ∧ c' = c
  rest : ∀ {c delay} {r : Except Exc Unit} {c'}, I.exec c (.sleep delay) r c' ↔
    r = (if delay < 0 then .error sleepLengthError else .ok ()) ∧ c' = ⟨c.calls, c.sleeps ++ [delay]⟩

/-- A transient boto error that is not swallowed. -/
def Again {α : Type} (swallow : String → Option α) (r : Except Exc α) : Prop :=
  ∃ e, r = .error e ∧ swallowed swallow e = none ∧ isTransient e = true

/-- An outcome as the ladder passes it on. -/
def settled {α : Type} (swallow : String → Option α) : Except Exc α → Except Exc α
  | .ok v => .ok v
  | .error e =>
    match swallowed swallow e with
    | some v => .ok v
    | none => .error e

/-- The bounds of the sleep that follows the `i`th call. -/
def RetryPolicy.ceiling (policy : RetryPolicy) (i : Nat) : Rat :=
  min policy.maxDelay (policy.baseDelay * 2 ^ i)

/-- What `call_with_retry` does on `outcomes`. -/
structure Climbed {α : Type} (policy : RetryPolicy) (operation : String)
    (swallow : String → Option α) (outcomes : Nat → Except Exc α) (r : Except Exc α) (c : Climb) :
    Prop where
  settles : ∀ {k}, k < policy.attempts → (∀ i < k, Again swallow (outcomes i)) →
    ¬ Again swallow (outcomes k) →
    r = settled swallow (outcomes k) ∧ c.calls = k + 1 ∧ c.sleeps.length = k
  givesUp : (∀ i < policy.attempts, Again swallow (outcomes i)) →
    (∃ text, r = .error (.transientDependency text operation)) ∧ c.calls = policy.attempts ∧
      c.sleeps.length = policy.attempts - 1
  within : ∀ {i delay}, c.sleeps[i]? = some delay → 0 ≤ delay ∧ delay ≤ policy.ceiling i
  computed : ∀ {i}, i < c.sleeps.length → fitsFloat (2 ^ i) = true

section Ladder

variable {α : Type} {policy : RetryPolicy} {operation : String} {swallow : String → Option α}
  {I : Interface Request Request.Resp Climb} {func : Py α} {outcomes : Nat → Except Exc α}

/-- Every sleep so far kept to its bounds. -/
def Rested (policy : RetryPolicy) (sleeps : List Rat) : Prop :=
  ∀ i delay, sleeps[i]? = some delay → 0 ≤ delay ∧ delay ≤ policy.ceiling i

theorem Rested.snoc {sleeps : List Rat} (h : Rested policy sleeps) {delay : Rat}
    (hdelay : 0 ≤ delay ∧ delay ≤ policy.ceiling sleeps.length) :
    Rested policy (sleeps ++ [delay]) := by
  intro i d hd
  rw [List.getElem?_append] at hd
  split at hd
  · exact h i d hd
  · obtain ⟨hi, rfl⟩ := List.getElem?_eq_some_iff.mp hd
    have hlength : i = sleeps.length := by
      rw [List.length_singleton] at hi
      omega
    subst hlength
    simpa using hdelay

theorem RetryPolicy.Sane.ceiling_nonneg (h : policy.Sane) (i : Nat) : 0 ≤ policy.ceiling i :=
  le_min h.max (mul_nonneg h.base (pow_nonneg (by decide) i))

theorem two_pow_lt_sub {i m k : ℕ} (hi : i < k) (hm : m + 1 < k) : 2 ^ i < 2 ^ k - 2 ^ m := by
  obtain ⟨n, rfl⟩ := Nat.exists_eq_succ_of_ne_zero (Nat.ne_zero_of_lt hi)
  have hle : 2 ^ i ≤ 2 ^ n := Nat.pow_le_pow_right Nat.two_pos (Nat.le_of_lt_succ hi)
  have hlt : 2 ^ m < 2 ^ n := Nat.pow_lt_pow_right Nat.one_lt_two (Nat.lt_of_succ_lt_succ hm)
  have htop : 2 ^ (n + 1) = 2 * 2 ^ n := pow_succ' 2 n
  rw [Nat.succ_eq_add_one]
  omega

/-- The factors of a sane policy convert to `float`s. -/
theorem RetryPolicy.Sane.fitsFloat (h : policy.Sane) {i : Nat} (hi : i + 1 < policy.attempts) :
    fitsFloat (2 ^ i) = true := by
  have hi : i < 1024 := by
    have hattempts := h.computed
    omega
  rw [PixelForge.fitsFloat, Int.natAbs_pow]
  exact decide_eq_true (two_pow_lt_sub hi (show 970 + 1 < 1024 by decide))

/-- The first outcome that is not tried again decides. -/
theorem climbed_of_settled {k : Nat} {r : Except Exc α} {c : Climb} (hsane : policy.Sane)
    (hk : k < policy.attempts)
    (hagain : ∀ i < k, Again swallow (outcomes i)) (hlast : ¬ Again swallow (outcomes k))
    (hr : r = settled swallow (outcomes k)) (hcalls : c.calls = k + 1)
    (hlength : c.sleeps.length = k) (hrested : Rested policy c.sleeps) :
    Climbed policy operation swallow outcomes r c where
  settles := by
    intro k' _ hagain' hlast'
    obtain hlt | rfl | hlt := Nat.lt_trichotomy k k'
    · exact absurd (hagain' k hlt) hlast
    · exact ⟨hr, hcalls, hlength⟩
    · exact absurd (hagain k' hlt) hlast'
  givesUp hall := absurd (hall k hk) hlast
  within h := hrested _ _ h
  computed hi := hsane.fitsFloat (by omega)

theorem climbed_of_giveUp {text : String} {c : Climb} (hsane : policy.Sane)
    (hagain : ∀ i < policy.attempts, Again swallow (outcomes i)) (hcalls : c.calls = policy.attempts)
    (hlength : c.sleeps.length = policy.attempts - 1) (hrested : Rested policy c.sleeps) :
    Climbed policy operation swallow outcomes (.error (.transientDependency text operation)) c where
  settles hk _ hlast := absurd (hagain _ hk) hlast
  givesUp _ := ⟨⟨text, rfl⟩, hcalls, hlength⟩
  within h := hrested _ _ h
  computed hi := hsane.fitsFloat (by omega)

theorem wp_scripted (h : Scripted I func outcomes) (hsane : policy.Sane) :
    Fallible.wp I (callWithRetry policy operation swallow func)
      (fun v => Climbed policy operation swallow outcomes (.ok v))
      (fun e => Climbed policy operation swallow outcomes (.error e)) ⟨0, []⟩ := by
  refine wp_ladder
    (J := fun i c => (∀ j < i, Again swallow (outcomes j)) ∧ c.calls = i ∧ c.sleeps.length = i ∧
      Rested policy c.sleeps)
    (F := fun i c => (∀ j < i, Again swallow (outcomes j)) ∧ c.calls = i ∧
      c.sleeps.length = i - 1 ∧ Rested policy c.sleeps) policy operation swallow ?_ ?_ ?_
    hsane.positive ⟨fun _ hj => absurd hj (Nat.not_lt_zero _), rfl, rfl, fun i d hd => by simp at hd⟩
  · rintro i c hi ⟨hagain, rfl, hlength, hrested⟩
    refine wp_of_ends h.may (fun v c' hends => ?_) fun e c' hends => ?_
    · obtain ⟨hv, rfl⟩ := h.call.mp hends
      refine climbed_of_settled hsane hi hagain ?_ (by rw [← hv]; rfl) rfl hlength hrested
      rintro ⟨e, he, -⟩
      cases hv.trans he
    · obtain ⟨he, rfl⟩ := h.call.mp hends
      have hagain_iff : Again swallow (outcomes c.calls) ↔
          swallowed swallow e = none ∧ isTransient e = true := by
        constructor
        · rintro ⟨e', he', hsw, ht⟩
          obtain rfl := Except.error.inj (he.trans he')
          exact ⟨hsw, ht⟩
        · exact fun ⟨hsw, ht⟩ => ⟨e, he.symm, hsw, ht⟩
      cases hsw : swallowed swallow e with
      | some v =>
        refine climbed_of_settled hsane hi hagain (fun ha => ?_) ?_ rfl hlength hrested
        · rw [hsw] at hagain_iff
          cases (hagain_iff.mp ha).1
        · simp only [← he, settled, hsw]
      | none =>
        by_cases ht : isTransient e = true
        · dsimp only
          rw [if_pos ht]
          refine ⟨fun j hj => ?_, rfl, hlength, hrested⟩
          obtain hj | rfl := Nat.lt_succ_iff_lt_or_eq.mp hj
          · exact hagain j hj
          · exact hagain_iff.mpr ⟨hsw, ht⟩
        · dsimp only
          rw [if_neg ht]
          refine climbed_of_settled hsane hi hagain (fun ha => ht (hagain_iff.mp ha).2) ?_ rfl hlength
            hrested
          simp only [← he, settled, hsw]
  · rintro i c hpos _ ⟨hagain, hcalls, hlength, hrested⟩
    refine (wp_ask _ _ _ _).mpr ⟨h.may _ _, fun r c' he => ?_⟩
    obtain ⟨delay, hdelay, rfl, rfl⟩ := h.draw.mp he
    have hbetween : delay ∈ Set.uIcc 0 (policy.ceiling (i - 1)) := hdelay
    have hbounds : 0 ≤ delay ∧ delay ≤ policy.ceiling (i - 1) := by
      rwa [Set.uIcc_of_le (hsane.ceiling_nonneg (i - 1))] at hbetween
    refine (wp_ask _ _ _ _).mpr ⟨h.may _ _, fun r c₂ he => ?_⟩
    obtain ⟨rfl, rfl⟩ := h.rest.mp he
    rw [if_neg (not_lt.mpr hbounds.1)]
    refine ⟨hagain, hcalls, ?_, hrested.snoc (hlength ▸ hbounds)⟩
    rw [List.length_append, List.length_singleton, hlength]
    omega
  · rintro text c ⟨hagain, hcalls, hlength, hrested⟩
    exact climbed_of_giveUp hsane hagain hcalls hlength hrested

/-- There always is a next outcome, a draw and a sleep. -/
theorem exists_climb (h : Scripted I func outcomes) (left attempt : Nat) (last : Option Exc)
    (c : Climb) :
    ∃ r c', Ends I (retryLoop policy operation swallow func left attempt last) c r c' := by
  induction left generalizing attempt last c with
  | zero => exact ⟨_, c, ends_raise_iff.mpr ⟨rfl, rfl⟩⟩
  | succ left ih =>
    have hcall : Ends I func c (outcomes c.calls) ⟨c.calls + 1, c.sleeps⟩ := h.call.mpr ⟨rfl, rfl⟩
    simp only [retryLoop, ends_tryElse_iff]
    cases ho : outcomes c.calls with
    | ok v =>
      rw [ho] at hcall
      exact ⟨.ok v, _, .inl ⟨v, _, hcall, ends_pure_iff.mpr ⟨rfl, rfl⟩⟩⟩
    | error e =>
      rw [ho] at hcall
      suffices hrest : ∃ r c', Ends I (match swallowed swallow e with
          | some v => pure v
          | none =>
            if isTransient e then do
              if attempt < policy.attempts then
                let delay ← policy.delayFor attempt
                ask (.sleep delay)
              retryLoop policy operation swallow func left (attempt + 1) (some e)
            else Fallible.raise e : Py α) ⟨c.calls + 1, c.sleeps⟩ r c' by
        obtain ⟨r, c', hr⟩ := hrest
        exact ⟨r, c', .inr ⟨e, _, hcall, hr⟩⟩
      cases swallowed swallow e with
      | some v => exact ⟨_, _, ends_pure_iff.mpr ⟨rfl, rfl⟩⟩
      | none =>
        dsimp only
        split
        · split
          · obtain ⟨r, c', hr⟩ := ih (attempt + 1) (some e) ⟨c.calls + 1, c.sleeps ++ [0]⟩
            have hdraw : Ends I (policy.delayFor attempt) ⟨c.calls + 1, c.sleeps⟩ (.ok 0)
                ⟨c.calls + 1, c.sleeps⟩ := ends_ask.mpr (h.draw.mpr ⟨0, Set.left_mem_uIcc, rfl, rfl⟩)
            have hrest : Ends I (ask (.sleep 0)) ⟨c.calls + 1, c.sleeps⟩ (.ok ())
                ⟨c.calls + 1, c.sleeps ++ [0]⟩ := ends_ask.mpr
                (h.rest.mpr ⟨(if_neg (lt_irrefl (0 : Rat))).symm, rfl⟩)
            exact ⟨r, c', ends_bind_iff.mpr (.inl ⟨0, _, hdraw, ends_bind_iff.mpr
              (.inl ⟨(), _, hrest, hr⟩)⟩)⟩
          · exact ih _ _ _
        · exact ⟨_, _, ends_raise_iff.mpr ⟨rfl, rfl⟩⟩

end Ladder

/-! ## A world for every sequence of outcomes -/

section World

variable {q : Request} {outcomes : Nat → q.Resp}

/-- The `i`th call of `q` has the outcome `outcomes i`. -/
inductive Takes (q : Request) (outcomes : Nat → q.Resp) :
    Climb → (q' : Request) → q'.Resp → Climb → Prop
  | call (c : Climb) : Takes q outcomes c q (outcomes c.calls) ⟨c.calls + 1, c.sleeps⟩
  | draw (c : Climb) {high x : Rat} (hx : x ∈ Set.uIcc 0 high) :
      Takes q outcomes c (.uniform high) (.ok x) c
  | rest (c : Climb) (delay : Rat) :
      Takes q outcomes c (.sleep delay) (if delay < 0 then .error sleepLengthError else .ok ())
        ⟨c.calls, c.sleeps ++ [delay]⟩

def world (q : Request) (outcomes : Nat → q.Resp) : Interface Request Request.Resp Climb where
  may _ _ := True
  exec := Takes q outcomes

theorem scripted_world (hq : q.isWait = false) : Scripted (world q outcomes) (ask q) outcomes where
  may _ _ := trivial
  call := by
    intro c r c'
    refine ends_ask.trans ⟨fun h => ?_, ?_⟩
    · cases h with
      | call => exact ⟨rfl, rfl⟩
      | draw => cases hq
      | rest => cases hq
    · rintro ⟨rfl, rfl⟩
      exact .call c
  draw := by
    intro c high r c'
    refine ⟨fun h => ?_, ?_⟩
    · cases h with
      | call => cases hq
      | draw hx => exact ⟨_, hx, rfl, rfl⟩
    · rintro ⟨x, hx, rfl, rfl⟩
      exact .draw _ hx
  rest := by
    intro c delay r c'
    refine ⟨fun h => ?_, ?_⟩
    · cases h with
      | call => cases hq
      | rest => exact ⟨rfl, rfl⟩
    · rintro ⟨rfl, rfl⟩
      exact .rest c delay

end World

def throttled : Exc := .clientError "Throttling" 400 "Rate exceeded"

/-- The first call is throttled. -/
def throttledOnce : Nat → Request.Resp (.deleteMessage "m-1")
  | 0 => .error throttled
  | _ => .ok ()

/-- A policy with a negative delay, which nothing refuses. -/
def backwards : RetryPolicy := { attempts := 2, baseDelay := -1 }

end PixelForge
