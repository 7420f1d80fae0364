import PixelForge.Effects.BigStep
import PixelForge.Shared.Cloud

/-! # The retry ladder (`shared/retry.py`)

`callWithRetry` around any body `func`. `wp_ladder` is its rule, attempt by attempt; `wp_callWithRetry`
is the one for a single request: `J` is what the attempts and the waits keep, and there are three ways
out (an answer, an error that is not worth retrying, and giving up).
-/
set_option autoImplicit false

namespace PixelForge
open Effects

def transientErrorCodes : List String :=
  ["InternalError", "InternalFailure", "InternalServerError",
    "ProvisionedThroughputExceededException", "RequestLimitExceeded", "RequestThrottled",
    "RequestThrottledException", "RequestTimeout", "RequestTimeoutException",
    "ServiceUnavailable", "SlowDown", "ThrottledException", "Throttling", "ThrottlingException",
    "TooManyRequestsException", "TransactionInProgressException", "503", "500"]

def transientBotocoreErrors : List String :=
  ["ConnectionClosedError", "ConnectTimeoutError", "EndpointConnectionError",
    "IncompleteReadError", "ReadTimeoutError", "ResponseStreamingError"]

structure RetryPolicy where
  attempts : Nat := 4
  baseDelay : Rat := 1 / 5
  maxDelay : Rat := 5
deriving DecidableEq, Repr

def defaultPolicy : RetryPolicy := {}

theorem attempts_pos : defaultPolicy.attempts ≠ 0 := by decide

/-- `delay_for`, in exact numbers: `base_delay * 2 ** 1024`, at which a policy of more than 1025
attempts arrives, raises an `OverflowError` that is left out here (`RetryPolicy.Sane`). -/
def RetryPolicy.delayFor (p : RetryPolicy) (attempt : Nat) : Py Rat :=
  ask (.uniform (min p.maxDelay (p.baseDelay * 2 ^ (attempt - 1))))

/-- The policies whose delays `delay_for` computes and `time.sleep` takes. Nothing validates them. -/
structure RetryPolicy.Sane (p : RetryPolicy) : Prop where
  positive : 1 ≤ p.attempts
  computed : p.attempts ≤ 1025
  base : 0 ≤ p.baseDelay
  max : 0 ≤ p.maxDelay

theorem sane_default : defaultPolicy.Sane := by
  constructor <;> decide +kernel

def isTransient : Exc → Bool
  | .clientError code status _ =>
    transientErrorCodes.contains code || decide (500 ≤ status) || status == 429
  | .botoCoreError cls _ => transientBotocoreErrors.contains cls
  | _ => false

/-- `swallow code` is what the call returns in place of raising a `ClientError` with that code. -/
def noSwallow {α : Type} : String → Option α := fun _ => none

/-- The value a caught `ClientError` is swallowed into, if its code is. -/
def swallowed {α : Type} (swallow : String → Option α) : Exc → Option α
  | .clientError code _ _ => swallow code
  | _ => none

/-- The loop over the attempts that are left, from the `attempt`th on. -/
def retryLoop {α : Type} (policy : RetryPolicy) (operation : String) (swallow : String → Option α)
    (func : Py α) : Nat → Nat → Option Exc → Py α
  | 0, _, last =>
    Fallible.raise (.transientDependency
      (let error := (last.map Exc.str).getD "None"
       s!"{operation} failed after {policy.attempts} attempts: {error}")
      operation)
  | left + 1, attempt, _ =>
    Fallible.tryElse func
      (fun e =>
        match swallowed swallow e with
        | some v => pure v
        | none =>
          if isTransient e then do
            if attempt < policy.attempts then
              let delay ← policy.delayFor attempt
              ask (.sleep delay)
            retryLoop policy operation swallow func left (attempt + 1) (some e)
          else Fallible.raise e)
      pure

def callWithRetry {α : Type} (policy : RetryPolicy) (operation : String)
    (swallow : String → Option α) (func : Py α) : Py α :=
  retryLoop policy operation swallow func policy.attempts 1 none

/-! ## The rule for one request -/

/-- What the ladder raises when every attempt failed. -/
def Exc.isGiveUp : Exc → Bool
  | .transientDependency _ _ => true
  | _ => false

/-- The requests the ladder makes between two attempts. -/
def Request.isWait : Request → Bool
  | .uniform _ => true
  | .sleep _ => true
  | _ => false

section Rule

variable {σ : Type} {I : Interface Request Request.Resp σ}

theorem wp_ask (q : Request) (Q : q.Val → σ → Prop) (X : Exc → σ → Prop) (s : σ) :
    Fallible.wp I (ask q) Q X s ↔
      I.may s q ∧ ∀ r s', I.exec s q r s' →
        match r with
        | .ok v => Q v s'
        | .error e => X e s' := by
  refine and_congr_right fun _ => forall_congr' fun r => forall_congr' fun s' => ?_
  cases r <;> rfl

theorem ends_ask {q : Request} {r : q.Resp} {s s' : σ} :
    Fallible.Ends I (ask q) s r s' ↔ I.exec s q r s' := by
  refine steps_call_iff.trans ⟨?_, fun he => ⟨r, s', he, .refl _ _⟩⟩
  rintro ⟨r', s₁, he, hret⟩
  obtain ⟨hr, rfl⟩ := steps_ret_iff.mp hret
  obtain rfl := Prog.ret.inj hr
  exact he

/-- **The ladder**: `J i` holds before the attempt that follows `i` failed ones, `F i` right after the
`i`th failed one, and a wait leads from `F i` to `J i`. -/
theorem wp_ladder {α : Type} {func : Py α} {J F : Nat → σ → Prop} {Q : α → σ → Prop}
    {X : Exc → σ → Prop} {s : σ} (policy : RetryPolicy) (operation : String)
    (swallow : String → Option α)
    (hok : ∀ i s, i < policy.attempts → J i s → Fallible.wp I func Q (fun e s' =>
      match swallowed swallow e with
      | some v => Q v s'
      | none => if isTransient e then F (i + 1) s' else X e s') s)
    (hwait : ∀ i s, 0 < i → i < policy.attempts → F i s → Fallible.wp I (policy.delayFor i)
      (fun delay s' => Fallible.wp I (ask (.sleep delay)) (fun _ s'' => J i s'') X s') X s)
    (hgiveUp : ∀ text s, F policy.attempts s → X (.transientDependency text operation) s)
    (hpos : 0 < policy.attempts) (hJ : J 0 s) :
    Fallible.wp I (callWithRetry policy operation swallow func) Q X s := by
  suffices h : ∀ left i last s, i + left = policy.attempts →
      (if left = 0 then F i s else J i s) →
      Fallible.wp I (retryLoop policy operation swallow func left (i + 1) last) Q X s from
    h policy.attempts 0 none s (Nat.zero_add _) ((if_neg hpos.ne').mpr hJ)
  intro left
  induction left with
  | zero =>
    rintro i last s rfl hs
    exact hgiveUp _ s hs
  | succ left ih =>
    intro i last s hi hs
    rw [retryLoop, Fallible.wp_tryElse]
    refine Fallible.wp_mono (hok i s (by omega) hs) (fun _ _ h => h) fun e s' h => ?_
    cases hv : swallowed swallow e with
    | some v =>
      rw [hv] at h
      exact h
    | none =>
      rw [hv] at h
      by_cases ht : isTransient e = true
      · simp only [if_pos ht] at h ⊢
        split
        · refine (Fallible.wp_bind _ _ _).mpr (Fallible.wp_mono
            (hwait (i + 1) s' (Nat.succ_pos i) ‹_› h) (fun delay s₁ h₁ => ?_) fun _ _ h => h)
          refine (Fallible.wp_bind _ _ _).mpr (Fallible.wp_mono h₁ (fun _ s₂ h₂ => ?_)
            fun _ _ h => h)
          exact ih (i + 1) _ s₂ (by omega) ((if_neg (by omega)).mpr h₂)
        · exact ih (i + 1) _ s' (by omega) ((if_pos (by omega)).mpr h)
      · simp only [if_neg ht] at h ⊢
        exact h

theorem swallowed_noSwallow {α : Type} (e : Exc) :
    swallowed (noSwallow : String → Option α) e = none := by
  cases e <;> rfl

/-- The ladder around one request: `J` holds at every attempt. -/
theorem wp_callWithRetry {q : Request} {J : σ → Prop} {Q : q.Val → σ → Prop}
    {X : Exc → σ → Prop} {s : σ} (policy : RetryPolicy) (operation : String)
    (hmay : ∀ s, J s → I.may s q)
    (hwait : ∀ s q', J s → q'.isWait = true →
      I.may s q' ∧ ∀ r s', I.exec s q' r s' → J s' ∧ ∃ v, r = .ok v)
    (hok : ∀ s v s', J s → I.exec s q (.ok v) s' → Q v s')
    (hagain : ∀ s e s', J s → I.exec s q (.error e) s' → isTransient e = true → J s')
    (hraise : ∀ s e s', J s → I.exec s q (.error e) s' → isTransient e = false → X e s')
    (hgiveUp : ∀ s e, J s → e.isGiveUp = true → X e s) (hJ : J s) :
    Fallible.wp I (callWithRetry policy operation noSwallow (ask q)) Q X s := by
  obtain hzero | hpos := Nat.eq_zero_or_pos policy.attempts
  · rw [callWithRetry, hzero]
    exact hgiveUp s _ hJ rfl
  · refine wp_ladder (J := fun _ => J) (F := fun _ => J) policy operation noSwallow
      (fun _ s _ hs => (wp_ask q _ _ s).mpr ⟨hmay s hs, ?_⟩) (fun i s _ _ hs => ?_)
      (fun _ s hs => hgiveUp s _ hs rfl) hpos hJ
    · rintro (e | v) s' he
      · simp only [swallowed_noSwallow]
        cases ht : isTransient e with
        | true => exact hagain s e s' hs he ht
        | false => exact hraise s e s' hs he ht
      · exact hok s v s' hs he
    · obtain ⟨hm, hw⟩ := hwait s (.uniform _) hs rfl
      refine (wp_ask _ _ _ s).mpr ⟨hm, fun r s₁ he₁ => ?_⟩
      obtain ⟨hs₁, delay, rfl⟩ := hw r s₁ he₁
      obtain ⟨hm, hw⟩ := hwait s₁ (.sleep delay) hs₁ rfl
      refine (wp_ask _ _ _ s₁).mpr ⟨hm, fun r s₂ he₂ => ?_⟩
      obtain ⟨hs₂, v, rfl⟩ := hw r s₂ he₂
      exact hs₂

theorem keeps_callWithRetry {α : Type} {J : σ → Prop} {m : Py α} (hm : Fallible.Keeps I J m)
    (hwait : ∀ q : Request, q.isWait = true → Fallible.Keeps I J (ask q)) (policy : RetryPolicy)
    (operation : String) (swallow : String → Option α) :
    Fallible.Keeps I J (callWithRetry policy operation swallow m) := by
  suffices hloop : ∀ left attempt last,
      Fallible.Keeps I J (retryLoop policy operation swallow m left attempt last) from hloop _ _ _
  intro left
  induction left with
  | zero => exact fun _ _ => .raise _
  | succ left ih =>
    intro attempt last
    rw [retryLoop]
    refine hm.tryElse (fun e => ?_) .pure
    split
    · exact .pure _
    · split
      · split
        · exact (hwait (.uniform _) rfl).bind fun delay =>
            (hwait (.sleep delay) rfl).bind fun _ => ih _ _
        · exact ih _ _
      · exact .raise e

end Rule

end PixelForge
