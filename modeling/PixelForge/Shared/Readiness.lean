import Mathlib.Tactic.Linarith
import PixelForge.Shared.Wrappers

/-! # Readiness (`shared/aws.py`)

`ReadinessProbe.run` asks the three dependencies and reports on each; `waitForDependencies` repeats it
until all three answer, with a pause after every round but the last.

* `Probed q swallow h h' text`: from `h` to `h'` one dependency was probed, and `text` is the report.
* `Surveyed p h h' report`: from `h` to `h'` the probe was run.
* `FailedRounds p pause i h`: `i` rounds have failed, each with its pause.
-/
set_option autoImplicit false

namespace PixelForge
open Effects

/-- `_summarise`. A `ClientError` of boto3 has a code. -/
def summarise : Exc → String
  | .clientError code _ _ => code
  | e => e.typeName

structure ReadinessProbe where
  clients : AwsClients

/-- What `run` returns: whether all is well, and the result for each dependency. -/
abbrev Report : Type := Bool × List (String × String)

namespace ReadinessProbe

variable (p : ReadinessProbe)

def probes : List (String × Py Unit) :=
  [("s3", p.clients.store.check), ("sqs", JobQueue.check), ("dynamodb", JobTable.check)]

/-- The loop of `run`. The names are distinct, so every assignment to `checks` is a new entry. -/
def runLoop : List (String × Py Unit) → Report → Py Report
  | [], report => pure report
  | (name, probe) :: rest, (ready, checks) =>
    Fallible.tryElse probe
      (fun e => runLoop rest (false, checks ++ [(name, "error: " ++ summarise e)]))
      fun _ => runLoop rest (ready, checks ++ [(name, "ok")])

def run : Py Report := runLoop p.probes (true, [])

end ReadinessProbe

/-- `[f"{name}={result}" for name, result in checks.items() if result != "ok"]`. -/
def failuresOf (checks : List (String × String)) : List String :=
  (checks.filter fun check => check.2 != "ok").map fun check => check.1 ++ "=" ++ check.2

/-- The error of a wait that was in vain; it names no operation. -/
def unavailable (failures : List String) : Exc :=
  .transientDependency
    ("dependencies unavailable after startup retries: " ++ ", ".intercalate failures) ""

/-- The pause after the round `i`, counted from 0. -/
def pauseAfter (baseDelay maxDelay : Rat) (i : Nat) : Rat := min maxDelay (baseDelay * 2 ^ i)

/-- `sleeper(min(max_delay, base_delay * (2 ** i)))`: from `2 ** 1024` on the power converts to no
`float`, and `time.sleep` takes no negative number. -/
def pauseRound (baseDelay maxDelay : Rat) (i : Nat) : Py Unit :=
  if 1024 ≤ i then Fallible.raise floatOverflow
  else if pauseAfter baseDelay maxDelay i < 0 then
    Fallible.raise (.python .valueError "sleep length must be non-negative")
  else ask (.sleep (pauseAfter baseDelay maxDelay i))

theorem pauseRound_cases (baseDelay maxDelay : Rat) (i : Nat) :
    (∃ e, pauseRound baseDelay maxDelay i = Fallible.raise e) ∨
      pauseRound baseDelay maxDelay i = ask (.sleep (pauseAfter baseDelay maxDelay i)) := by
  unfold pauseRound
  by_cases hi : 1024 ≤ i
  · exact .inl ⟨_, if_pos hi⟩
  · rw [if_neg hi]
    by_cases hneg : pauseAfter baseDelay maxDelay i < 0
    · exact .inl ⟨_, if_pos hneg⟩
    · exact .inr (if_neg hneg)

/-- The rounds that are left, from the `attempt`th on. -/
def waitLoop (probe : ReadinessProbe) (attempts : Nat) (baseDelay maxDelay : Rat) :
    Nat → Nat → List String → Py Unit
  | 0, _, failures => Fallible.raise (unavailable failures)
  | left + 1, attempt, _ => do
    let report ← probe.run
    if report.1 then pure ()
    else do
      if attempt < attempts then
        pauseRound baseDelay maxDelay (attempt - 1)
      waitLoop probe attempts baseDelay maxDelay left (attempt + 1) (failuresOf report.2)

def waitForDependencies (clients : AwsClients) (attempts : Nat := 10) (baseDelay : Rat := 1 / 2)
    (maxDelay : Rat := 15) : Py Unit :=
  waitLoop ⟨clients⟩ attempts baseDelay maxDelay attempts 1 []

section Kept

variable {σ : Type} {I : Interface Request Request.Resp σ} {J : σ → Prop}

theorem keeps_runLoop {probes : List (String × Py Unit)}
    (hprobes : ∀ x ∈ probes, Fallible.Keeps I J x.2) (report : Report) :
    Fallible.Keeps I J (ReadinessProbe.runLoop probes report) := by
  induction probes generalizing report with
  | nil => exact .pure report
  | cons x rest ih =>
    have hrest := ih fun y hy => hprobes y (List.mem_cons_of_mem _ hy)
    exact (hprobes x List.mem_cons_self).tryElse (fun e => hrest _) fun _ => hrest _

/-- What a probe and a pause keep, the wait keeps. -/
theorem keeps_waitForDependencies {clients : AwsClients}
    (hprobe : Fallible.Keeps I J (ReadinessProbe.run ⟨clients⟩))
    (hsleep : ∀ seconds, Fallible.Keeps I J (ask (.sleep seconds) : Py Unit)) (attempts : Nat)
    (baseDelay maxDelay : Rat) :
    Fallible.Keeps I J (waitForDependencies clients attempts baseDelay maxDelay) := by
  have hpause : ∀ i, Fallible.Keeps I J (pauseRound baseDelay maxDelay i) := by
    intro i
    obtain ⟨e, he⟩ | hsleeps := pauseRound_cases baseDelay maxDelay i
    · exact he ▸ .raise e
    · exact hsleeps ▸ hsleep _
  suffices hloop : ∀ left attempt failures, Fallible.Keeps I J
      (waitLoop ⟨clients⟩ attempts baseDelay maxDelay left attempt failures) from hloop _ _ _
  intro left
  induction left with
  | zero => exact fun _ _ => .raise _
  | succ left ih =>
    intro attempt failures
    refine hprobe.bind fun report => ?_
    split
    · exact .pure _
    · split
      · exact (hpause _).bind fun _ => ih _ _
      · exact ih _ _

end Kept

/-! ## One run of the probe -/

theorem error_ne_ok (text : String) : "error: " ++ text ≠ "ok" := by
  intro h
  have hlist := congrArg String.toList h
  rw [String.toList_append] at hlist
  exact absurd (List.cons.inj hlist).1 (by decide)

/-- How the probe of one dependency goes: it answers, or it refuses with a code that proves it is
there; it fails for good; or both attempts fail. -/
inductive Probed (q : Request) (swallow : String → Option q.Val) (h : History) :
    History → String → Prop
  | answered {i : Nat} {h' : History} {v : q.Val} (hi : i < probePolicy.attempts)
      (hc : Climbing q swallow i h h') : Probed q swallow h (⟨q, .ok v⟩ :: h') "ok"
  | denied {i : Nat} {h' : History} {e : Exc} {v : q.Val} (hi : i < probePolicy.attempts)
      (hc : Climbing q swallow i h h') (hsw : swallowed swallow e = some v) :
      Probed q swallow h (⟨q, .error e⟩ :: h') "ok"
  | refused {i : Nat} {h' : History} {e : Exc} (hi : i < probePolicy.attempts)
      (hc : Climbing q swallow i h h') (hsw : swallowed swallow e = none)
      (ht : isTransient e = false) :
      Probed q swallow h (⟨q, .error e⟩ :: h') ("error: " ++ summarise e)
  | exhausted {h' : History} (hc : Climbing q swallow probePolicy.attempts h h') :
      Probed q swallow h h' "error: TransientDependencyError"

/-- The three dependencies are probed one after another, and the report is made of the three results. -/
def Surveyed (p : ReadinessProbe) (h h' : History) (report : Report) : Prop :=
  ∃ h₁ h₂ s q d,
    Probed (.headBucket p.clients.store.bucket) (swallowDenied ()) h h₁ s ∧
    Probed .getQueueAttributes (swallowDenied ()) h₁ h₂ q ∧
    Probed (.getItem readinessSentinelJobId) (swallowDenied none) h₂ h' d ∧
    report.2 = [("s3", s), ("sqs", q), ("dynamodb", d)] ∧
    (report.1 = true ↔ s = "ok" ∧ q = "ok" ∧ d = "ok")

section Probing

variable {ext : Externals} {h : History}

/-- One probe, as the loop of `run` sees it. -/
theorem wp_probed (q : Request) (swallow : String → Option q.Val) (operation : String) :
    Fallible.wp (recorded ext) (callWithRetry probePolicy operation swallow (ask q))
      (fun _ h' => Probed q swallow h h' "ok")
      (fun e h' => Probed q swallow h h' ("error: " ++ summarise e)) h :=
  wp_recorded_ladder probePolicy operation (by decide) (fun hi hc _ => .answered hi hc)
    (fun hi hc hsw => .denied hi hc hsw) (fun hi hc _ hsw ht => .refused hi hc hsw ht)
    fun hc => .exhausted hc

/-- One turn of the loop of `run`: the result is noted, and nothing is raised. -/
theorem wp_runLoop_cons {name : String} {probe : Py Unit} {rest : List (String × Py Unit)}
    {ready : Bool} {checks : List (String × String)} {P : String → History → Prop}
    {Q : Report → History → Prop} {X : Exc → History → Prop}
    (hprobe : Fallible.wp (recorded ext) probe (fun _ h' => P "ok" h')
      (fun e h' => P ("error: " ++ summarise e) h') h)
    (hrest : ∀ text h', P text h' →
      Fallible.wp (recorded ext) (ReadinessProbe.runLoop rest
        (ready && text == "ok", checks ++ [(name, text)])) Q X h') :
    Fallible.wp (recorded ext) (ReadinessProbe.runLoop ((name, probe) :: rest) (ready, checks)) Q X h := by
  refine (Fallible.wp_tryElse _ _ _ _).mpr (Fallible.wp_mono hprobe (fun _ h' hP => ?_) fun e h' hP => ?_)
  · have hok := hrest "ok" h' hP
    rwa [beq_self_eq_true, Bool.and_true] at hok
  · have herror := hrest _ h' hP
    rwa [beq_false_of_ne (error_ne_ok _), Bool.and_false] at herror

theorem wp_run (p : ReadinessProbe) (h : History) :
    Fallible.wp (recorded ext) p.run (fun report h' => Surveyed p h h' report)
      (fun _ _ => False) h := by
  refine wp_runLoop_cons (P := fun s h₁ => Probed (.headBucket p.clients.store.bucket)
    (swallowDenied ()) h h₁ s) (wp_probed (.headBucket _) _ "s3.head_bucket") fun s h₁ hs => ?_
  refine wp_runLoop_cons (P := fun q h₂ => Probed .getQueueAttributes (swallowDenied ()) h₁ h₂ q)
    (wp_probed .getQueueAttributes _ "sqs.get_queue_attributes") fun q h₂ hq => ?_
  refine wp_runLoop_cons (P := fun d h₃ => Probed (.getItem readinessSentinelJobId)
    (swallowDenied none) h₂ h₃ d) ?_ fun d h₃ hd => ?_
  · exact (Fallible.wp_bind _ _ _).mpr (wp_probed (.getItem _) _ "dynamodb.get_item")
  refine ⟨h₁, h₂, s, q, d, hs, hq, hd, rfl, ?_⟩
  simp only [Bool.true_and, Bool.and_eq_true, beq_iff_eq, and_assoc]

/-- **The probe never raises**, and its report is what the dependencies answered. -/
theorem probe_reports {p : ReadinessProbe} {r : Except Exc Report}
    (hrun : Steps (recorded ext) p.run [] (.ret r) h) :
    ∃ report, r = .ok report ∧ Surveyed p [] h report := by
  have hend := hrun.returned (wp_run p [])
  cases r with
  | ok report => exact ⟨report, rfl, hend⟩
  | error e => exact hend.elim

end Probing

/-! ## The wait for all three dependencies -/

/-- `i` rounds have failed, each followed by its pause. -/
inductive FailedRounds (p : ReadinessProbe) (pause : Nat → Rat) : Nat → History → Prop
  | start : FailedRounds p pause 0 []
  | round {i : Nat} {h h' : History} {checks : List (String × String)} (hw : FailedRounds p pause i h)
      (hs : Surveyed p h h' (false, checks)) :
      FailedRounds p pause (i + 1) (⟨.sleep (pause i), .ok ()⟩ :: h')

def Request.pause : Request → Rat
  | .sleep seconds => seconds
  | _ => 0

/-- How long a run has slept, the pauses of the retry ladder included. -/
def slept : History → Rat
  | [] => 0
  | v :: h => v.1.pause + slept h

section Waits

variable {ext : Externals} {h : History} {p : ReadinessProbe} {attempts : Nat}
  {baseDelay maxDelay : Rat}

theorem slept_call {q : Request} (hq : q.isWait = false) (r : q.Resp) (h : History) :
    slept (⟨q, r⟩ :: h) = slept h := by
  have hpause : q.pause = 0 := by cases q <;> first | rfl | cases hq
  rw [slept, hpause, zero_add]

/-- A draw lies between its bounds. -/
theorem draw_le {high : Rat} {r : Request.Resp (.uniform high)}
    (ha : Cloud.Answers ext (.uniform high) r) :
    ∃ x : Rat, r = .ok x ∧ min 0 high ≤ x ∧ x ≤ max 0 high := by
  obtain ⟨x, rfl⟩ := ha.steady rfl
  obtain ⟨s, ch, s', hp⟩ := ha
  have hserve := Cloud.perform_ok hp
  simp only [Cloud.serve] at hserve
  split at hserve
  · next hx =>
    obtain rfl := Except.ok.inj (Prod.mk.inj (Option.some.inj hserve)).1
    exact ⟨_, rfl, hx⟩
  · cases hserve

/-- A probe sleeps for a tenth of a second at most. -/
theorem wp_probe_slept (q : Request) (hq : q.isWait = false) (swallow : String → Option q.Val)
    (operation : String) {c : Rat} (hc : slept h ≤ c) :
    Fallible.wp (recorded ext) (callWithRetry probePolicy operation swallow (ask q))
      (fun _ h' => slept h' ≤ c + 1 / 10) (fun _ h' => slept h' ≤ c + 1 / 10) h := by
  have hstay : ∀ {h' : History} {r : q.Resp}, slept h' ≤ c + 1 / 10 →
      slept (⟨q, r⟩ :: h') ≤ c + 1 / 10 := fun hh => by rwa [slept_call hq]
  refine wp_ladder (J := fun i h' => i < 2 → slept h' ≤ c + if i = 0 then 0 else 1 / 10)
    (F := fun i h' => slept h' ≤ c + if i = 1 then 0 else 1 / 10) probePolicy operation swallow
    (fun i h' hi hJ => (wp_ask q _ _ h').mpr ⟨trivial, ?_⟩) (fun i h' hpos hi hF => ?_)
    (fun _ h' hF => hF) (by decide) fun _ => by simpa using hc
  · have hlow : slept h' ≤ c + if i = 0 then 0 else 1 / 10 := hJ hi
    have hhigh : slept h' ≤ c + 1 / 10 := hlow.trans (by split <;> linarith)
    rintro (e | v) _ ⟨-, rfl⟩
    · dsimp only
      cases swallowed swallow e with
      | some v => exact hstay hhigh
      | none =>
        dsimp only
        split
        · rw [slept_call hq]
          simpa only [Nat.add_eq_right] using hlow
        · exact hstay hhigh
    · exact hstay hhigh
  · have hone : i = 1 := by
      have htwo : i < 2 := hi
      omega
    subst hone
    refine (wp_ask _ _ _ h').mpr ⟨trivial, ?_⟩
    rintro r _ ⟨ha, rfl⟩
    obtain ⟨delay, rfl, -, hdelay⟩ := draw_le ha
    refine (wp_ask _ _ _ _).mpr ⟨trivial, ?_⟩
    rintro r _ ⟨ha, rfl⟩
    obtain ⟨x, rfl⟩ := ha.steady rfl
    intro _
    have hceiling : delay ≤ 1 / 10 := hdelay.trans (by norm_num [probePolicy])
    rw [if_pos rfl, add_zero] at hF
    rw [if_neg (by decide)]
    simp only [slept, Request.pause, zero_add]
    linarith

theorem wp_run_slept {c : Rat} (hc : slept h ≤ c) :
    Fallible.wp (recorded ext) p.run (fun _ h' => slept h' ≤ c + 3 / 10) (fun _ _ => False) h := by
  refine wp_runLoop_cons (P := fun _ h₁ => slept h₁ ≤ c + 1 / 10)
    (wp_probe_slept (.headBucket _) rfl _ "s3.head_bucket" hc) fun _ h₁ h₁c => ?_
  refine wp_runLoop_cons (P := fun _ h₂ => slept h₂ ≤ c + 1 / 10 + 1 / 10)
    (wp_probe_slept .getQueueAttributes rfl _ "sqs.get_queue_attributes" h₁c) fun _ h₂ h₂c => ?_
  refine wp_runLoop_cons (P := fun _ h₃ => slept h₃ ≤ c + 1 / 10 + 1 / 10 + 1 / 10)
    ((Fallible.wp_bind _ _ _).mpr (wp_probe_slept (.getItem _) rfl _ "dynamodb.get_item" h₂c))
    fun _ h₃ h₃c => ?_
  exact h₃c.trans (by linarith)

theorem pauseAfter_nonneg (hbase : 0 ≤ baseDelay) (hmax : 0 ≤ maxDelay) (i : Nat) :
    0 ≤ pauseAfter baseDelay maxDelay i := le_min hmax (mul_nonneg hbase (pow_nonneg (by decide) i))

theorem pauseRound_eq {i : Nat} (hi : i < 1024) (hpause : 0 ≤ pauseAfter baseDelay maxDelay i) :
    pauseRound baseDelay maxDelay i = ask (.sleep (pauseAfter baseDelay maxDelay i)) := by
  rw [pauseRound, if_neg (not_le.mpr hi)]
  exact if_neg (not_lt.mpr hpause)

/-- **The rule for the rounds**: `J i` holds before the round `i`, and `D i` when it has failed. -/
theorem wp_waitLoop {J : Nat → History → Prop} {D : Nat → List (String × String) → History → Prop}
    {Q : Unit → History → Prop} {X : Exc → History → Prop}
    (hround : ∀ i h, i < attempts → J i h → Fallible.wp (recorded ext) p.run
      (fun report h' => if report.1 = true then Q () h' else D i report.2 h') (fun _ _ => False) h)
    (hpause : ∀ i checks h, i + 1 < attempts → D i checks h →
      J (i + 1) (⟨.sleep (pauseAfter baseDelay maxDelay i), .ok ()⟩ :: h))
    (hgiveUp : ∀ i checks h, i + 1 = attempts → D i checks h → X (unavailable (failuresOf checks)) h)
    (hbase : 0 ≤ baseDelay) (hmax : 0 ≤ maxDelay) (hpos : 1 ≤ attempts) (hmost : attempts ≤ 1025)
    (hJ : J 0 h) :
    Fallible.wp (recorded ext) (waitLoop p attempts baseDelay maxDelay attempts 1 []) Q X h := by
  suffices hloop : ∀ left i failures h, i + left = attempts →
      (if left = 0 then X (unavailable failures) h else J i h) →
      Fallible.wp (recorded ext) (waitLoop p attempts baseDelay maxDelay left (i + 1) failures) Q X h from
    hloop attempts 0 [] h (Nat.zero_add _) (by rwa [if_neg (by omega)])
  intro left
  induction left with
  | zero => exact fun _ _ _ _ hX => hX
  | succ left ih =>
    intro i failures h hi hJ
    refine (Fallible.wp_bind _ _ _).mpr
      (Fallible.wp_mono (hround i h (by omega) hJ) (fun report h' hreport => ?_) fun _ _ hf => hf.elim)
    by_cases hready : report.1 = true
    · rw [if_pos hready] at hreport ⊢
      exact hreport
    · rw [if_neg hready] at hreport ⊢
      by_cases hlast : i + 1 < attempts
      · have hpauses : pauseRound baseDelay maxDelay (i + 1 - 1) =
            ask (.sleep (pauseAfter baseDelay maxDelay i)) :=
          pauseRound_eq (by omega) (pauseAfter_nonneg hbase hmax i)
        rw [if_pos hlast, hpauses]
        refine (Fallible.wp_bind _ _ _).mpr ((wp_ask _ _ _ _).mpr ⟨trivial, ?_⟩)
        rintro r _ ⟨ha, rfl⟩
        obtain ⟨x, rfl⟩ := ha.steady rfl
        exact ih (i + 1) _ _ (by omega) (by
          rw [if_neg (by omega)]
          exact hpause i report.2 h' hlast hreport)
      · rw [if_neg hlast]
        exact ih (i + 1) _ _ (by omega) (by
          rw [if_pos (by omega)]
          exact hgiveUp i report.2 h' (by omega) hreport)

/-- How a wait ends: with the first round in which all three dependencies answer, or with the last. -/
def Waited (p : ReadinessProbe) (attempts : Nat) (pause : Nat → Rat) (h : History) :
    Except Exc Unit → Prop
  | .ok () => ∃ i h₀ checks, i < attempts ∧ FailedRounds p pause i h₀ ∧ Surveyed p h₀ h (true, checks)
  | .error e => ∃ i h₀ checks, i + 1 = attempts ∧ FailedRounds p pause i h₀ ∧
      Surveyed p h₀ h (false, checks) ∧ e = unavailable (failuresOf checks)

theorem wp_waited (hbase : 0 ≤ baseDelay) (hmax : 0 ≤ maxDelay) (hpos : 1 ≤ attempts)
    (hmost : attempts ≤ 1025) :
    Fallible.wp (recorded ext) (waitLoop p attempts baseDelay maxDelay attempts 1 [])
      (fun _ h => Waited p attempts (pauseAfter baseDelay maxDelay) h (.ok ()))
      (fun e h => Waited p attempts (pauseAfter baseDelay maxDelay) h (.error e)) [] := by
  refine wp_waitLoop (J := fun i h => FailedRounds p (pauseAfter baseDelay maxDelay) i h)
    (D := fun i checks h => ∃ h₀, FailedRounds p (pauseAfter baseDelay maxDelay) i h₀ ∧
      Surveyed p h₀ h (false, checks)) (fun i h hi hw => ?_) ?_ ?_ hbase hmax hpos
    hmost .start
  · refine Fallible.wp_mono (wp_run p h) (fun report h' hs => ?_) fun _ _ hf => hf
    obtain ⟨ready, checks⟩ := report
    cases ready with
    | true => exact ⟨i, h, checks, hi, hw, hs⟩
    | false => exact ⟨h, hw, hs⟩
  · rintro i checks h - ⟨h₀, hw, hs⟩
    exact .round hw hs
  · rintro i checks h hi ⟨h₀, hw, hs⟩
    exact ⟨i, h₀, checks, hi, hw, hs, rfl⟩

/-- What the rounds before the round `i` sleep at most. -/
def sleptBefore (pause : Nat → Rat) : Nat → Rat
  | 0 => 0
  | i + 1 => sleptBefore pause i + 3 / 10 + pause i

theorem sleptBefore_le {pause : Nat → Rat} (hpause : ∀ i, 0 ≤ pause i) {i j : Nat} (hij : i ≤ j) :
    sleptBefore pause i ≤ sleptBefore pause j := by
  induction hij with
  | refl => exact le_refl _
  | @step j _ ih =>
    have hnext := hpause j
    rw [sleptBefore]
    linarith

theorem wp_wait_slept (hbase : 0 ≤ baseDelay) (hmax : 0 ≤ maxDelay) (hpos : 1 ≤ attempts)
    (hmost : attempts ≤ 1025) :
    Fallible.wp (recorded ext) (waitLoop p attempts baseDelay maxDelay attempts 1 [])
      (fun _ h => slept h ≤ sleptBefore (pauseAfter baseDelay maxDelay) (attempts - 1) + 3 / 10)
      (fun _ h => slept h ≤ sleptBefore (pauseAfter baseDelay maxDelay) (attempts - 1) + 3 / 10) [] := by
  have hpause : ∀ i, 0 ≤ pauseAfter baseDelay maxDelay i := pauseAfter_nonneg hbase hmax
  refine wp_waitLoop (J := fun i h => slept h ≤ sleptBefore (pauseAfter baseDelay maxDelay) i)
    (D := fun i _ h => slept h ≤ sleptBefore (pauseAfter baseDelay maxDelay) i + 3 / 10)
    (fun i h hi hJ => ?_) ?_ ?_ hbase hmax hpos hmost (le_refl _)
  · refine Fallible.wp_mono (wp_run_slept hJ) (fun report h' hs => ?_) fun _ _ hf => hf
    split
    · have hle := sleptBefore_le hpause (Nat.le_sub_one_of_lt hi)
      linarith
    · exact hs
  · intro i _ h _ hD
    rw [slept, sleptBefore, Request.pause]
    linarith
  · intro i _ h hi hD
    rwa [← hi, Nat.add_sub_cancel]

/-- The worker's schedule comes to 78.5 seconds. -/
example : sleptBefore (pauseAfter (1 / 2) 15) 9 + 3 / 10 = 157 / 2 := by
  norm_num [sleptBefore, pauseAfter]

end Waits

namespace Surroundings

def noSuchTable : Exc := .clientError "ResourceNotFoundException" 400 "No such table"

/-- S3 answers, SQS denies access, and there is no table. -/
def halfUp : List Choice :=
  [{}, { fault := .failed accessDenied }, { fault := .failed noSuchTable }]

theorem probe_reports_halfUp : ∃ h,
    Steps (recorded small) (ReadinessProbe.run ⟨.build config⟩) []
      (.ret (.ok (false, [("s3", "ok"), ("sqs", "ok"),
        ("dynamodb", "error: ResourceNotFoundException")]))) h ∧
      ∃ report, Surveyed ⟨.build config⟩ [] h report ∧ report.1 = false := by
  have hplay : Prog.play (Cloud.perform small) (ReadinessProbe.run ⟨.build config⟩) Cloud.empty halfUp =
      some (.ret (.ok (false, [("s3", "ok"), ("sqs", "ok"),
        ("dynamodb", "error: ResourceNotFoundException")])), _, _) := rfl
  have hrun := Prog.play_steps Cloud.answers_of_perform hplay []
  obtain ⟨report, hr, hs⟩ := probe_reports hrun
  obtain rfl := Except.ok.inj hr
  exact ⟨_, hrun, _, hs, rfl⟩

/-- A pause, and a round in which all three answer. -/
def answering : List Choice := [{}, {}, {}, {}]

/-- Whether a program has returned. -/
def returnedUnit : Prog Request Request.Resp (Except Exc Unit) → Bool
  | .ret (.ok ()) => true
  | _ => false

end Surroundings

end PixelForge
