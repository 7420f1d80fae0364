import Mathlib.Data.List.Chain
import PixelForge.Effects.Leases
import PixelForge.Effects.Traces
import PixelForge.Shared.Errors

/-! # The visibility heartbeat (`worker/heartbeat.py`)

`_loop` waits for `interval` seconds, calls `change_visibility`, and waits again until the stop
event is set. A `Watch` is the heartbeat beside the clock and the deadline that the queue keeps for
the message: a beat that succeeds moves the deadline to `extension` after it, one that fails leaves
the deadline alone, and both take no time. Each state of the watch is a lease of `Effects.Leases`.
-/
set_option autoImplicit false

namespace PixelForge

open Effects

/-! ## The heartbeat -/

def heartbeatIntervalSeconds : Int := 15

def visibilityExtensionSeconds : Int := 60

/-- `VisibilityHeartbeat`; `stopped` is its stop event. -/
structure VisibilityHeartbeat where
  interval : Int
  extension : Int
  stopped : Bool
  beats : Nat
deriving DecidableEq, Repr

namespace VisibilityHeartbeat

def init (intervalSeconds extensionSeconds : Int) : VisibilityHeartbeat :=
  let interval := max 1 intervalSeconds
  { interval := interval
    extension := max (interval * 2) extensionSeconds
    stopped := false
    beats := 0 }

def stop (h : VisibilityHeartbeat) : VisibilityHeartbeat := { h with stopped := true }

/-- The body of `_loop` once the call has ended: a failed extension is not fatal. -/
def beat (h : VisibilityHeartbeat) : Except Exc Unit → VisibilityHeartbeat
  | .ok () => { h with beats := h.beats + 1 }
  | .error _ => h

@[simp] theorem stopped_beat (h : VisibilityHeartbeat) (r : Except Exc Unit) :
    (h.beat r).stopped = h.stopped := by
  cases r <;> rfl

@[simp] theorem interval_beat (h : VisibilityHeartbeat) (r : Except Exc Unit) :
    (h.beat r).interval = h.interval := by
  cases r <;> rfl

@[simp] theorem extension_beat (h : VisibilityHeartbeat) (r : Except Exc Unit) :
    (h.beat r).extension = h.extension := by
  cases r <;> rfl

theorem one_le_interval (i e : Int) : 1 ≤ (init i e).interval := le_max_left 1 i

theorem two_intervals_le (i e : Int) : 2 * (init i e).interval ≤ (init i e).extension := by
  have h : (init i e).interval * 2 ≤ (init i e).extension := le_max_left _ _
  omega

end VisibilityHeartbeat

/-! ## Calls and misses -/

variable {K : Type}

/-- The clock moves on, the wait times out and the call ends as given, or `stop` is called. -/
inductive WatchEvent (K : Type)
  | wait (until_ : K)
  | beat (result : Except Exc Unit)
  | stop

/-- The results of the `change_visibility` calls, in order. -/
def calls : List (WatchEvent K) → List (Except Exc Unit)
  | [] => []
  | .beat r :: es => r :: calls es
  | .wait _ :: es => calls es
  | .stop :: es => calls es

/-- Whether the call raised. -/
def failed : Except Exc Unit → Bool
  | .ok () => false
  | .error _ => true

/-- No two consecutive calls fail. -/
def NeverTwice (rs : List (Except Exc Unit)) : Prop :=
  rs.IsChain fun a b => ¬ (failed a = true ∧ failed b = true)

instance (rs : List (Except Exc Unit)) : Decidable (NeverTwice rs) :=
  inferInstanceAs (Decidable (rs.IsChain _))

/-- How many calls have failed since the last one that did not. -/
def misses (rs : List (Except Exc Unit)) : Nat := (rs.reverse.takeWhile failed).length

theorem calls_append (es es' : List (WatchEvent K)) : calls (es ++ es') = calls es ++ calls es' := by
  induction es with
  | nil => rfl
  | cons e es ih => cases e <;> simp [calls, ih]

theorem misses_ok (rs : List (Except Exc Unit)) : misses (rs ++ [.ok ()]) = 0 := by
  simp [misses, failed]

theorem misses_error (rs : List (Except Exc Unit)) (x : Exc) :
    misses (rs ++ [.error x]) = misses rs + 1 := by
  simp [misses, List.takeWhile_cons, failed]

/-- Where no two consecutive calls fail, at most the last one is a miss. -/
theorem misses_le_one {rs : List (Except Exc Unit)} (h : NeverTwice rs) : misses rs ≤ 1 := by
  induction rs using List.reverseRecOn with
  | nil => exact Nat.zero_le 1
  | append_singleton rs r ih =>
    cases r with
    | ok u => exact (misses_ok rs).le.trans (Nat.zero_le 1)
    | error x =>
      rw [misses_error]
      have hrest : misses rs = 0 := by
        induction rs using List.reverseRecOn with
        | nil => rfl
        | append_singleton rs r' _ =>
          cases r' with
          | ok u => exact misses_ok rs
          | error y =>
            rw [NeverTwice, List.append_assoc] at h
            have hpair := List.isChain_pair.mp (List.IsChain.right_of_append h)
            exact absurd ⟨rfl, rfl⟩ hpair
      omega

/-! ## The watch -/

variable [CommRing K] [LinearOrder K]

/-- The heartbeat, the time, the time at which `_stop.wait` times out, and the time until which the
message stays invisible. -/
structure Watch (K : Type) where
  heartbeat : VisibilityHeartbeat
  now : K
  wakes : K
  deadline : K
deriving DecidableEq

namespace Watch

/-- `VisibilityHeartbeat.start` at `now`, when the message is invisible until `deadline`. -/
def start (h : VisibilityHeartbeat) (now deadline : K) : Watch K :=
  ⟨h, now, now + h.interval, deadline⟩

/-- One event. The clock does not pass the end of a wait while the loop runs. -/
def step (w : Watch K) : WatchEvent K → Option (Watch K)
  | .wait t =>
    if w.now ≤ t ∧ (w.heartbeat.stopped = true ∨ t ≤ w.wakes) then some { w with now := t }
    else none
  | .beat r =>
    if w.heartbeat.stopped = false ∧ w.now = w.wakes then
      some
        { heartbeat := w.heartbeat.beat r
          now := w.now
          wakes := w.now + w.heartbeat.interval
          deadline := match r with
            | .ok () => w.now + w.heartbeat.extension
            | .error _ => w.deadline }
    else none
  | .stop => some { w with heartbeat := w.heartbeat.stop }

variable {w w' : Watch K}

theorem step_cases {e : WatchEvent K} (h : w.step e = some w') :
    (∃ t, e = .wait t ∧ w.now ≤ t ∧ (w.heartbeat.stopped = true ∨ t ≤ w.wakes) ∧
      w' = { w with now := t }) ∨
    (e = .beat (.ok ()) ∧ w.heartbeat.stopped = false ∧ w.now = w.wakes ∧
      w' = ⟨w.heartbeat.beat (.ok ()), w.now, w.now + w.heartbeat.interval,
        w.now + w.heartbeat.extension⟩) ∨
    (∃ x, e = .beat (.error x) ∧ w.heartbeat.stopped = false ∧ w.now = w.wakes ∧
      w' = ⟨w.heartbeat, w.now, w.now + w.heartbeat.interval, w.deadline⟩) ∨
    (e = .stop ∧ w' = { w with heartbeat := w.heartbeat.stop }) := by
  cases e with
  | wait t =>
    obtain ⟨⟨hfrom, hto⟩, rfl⟩ := of_guarded h
    exact .inl ⟨t, rfl, hfrom, hto, rfl⟩
  | beat r =>
    obtain ⟨⟨hrun, hdue⟩, rfl⟩ := of_guarded h
    cases r with
    | ok u => exact .inr (.inl ⟨rfl, hrun, hdue, rfl⟩)
    | error x => exact .inr (.inr (.inl ⟨x, rfl, hrun, hdue, rfl⟩))
  | stop => exact .inr (.inr (.inr ⟨rfl, (Option.some.inj h).symm⟩))

end Watch

/-! ## The watch is a lease -/

namespace Watch

variable {w w' : Watch K} {e : WatchEvent K} {es : List (WatchEvent K)}

/-- The watch as a lease, after `m` calls have failed in a row. -/
def lease (w : Watch K) (m : ℕ) : Lease K := ⟨w.now, w.wakes, w.deadline, m⟩

theorem running_of_step (h : w.step e = some w') (hw : w'.heartbeat.stopped = false) :
    w.heartbeat.stopped = false := by
  obtain ⟨t, rfl, -, -, rfl⟩ | ⟨rfl, hrun, -, rfl⟩ | ⟨x, rfl, hrun, -, rfl⟩ | ⟨rfl, rfl⟩ :=
    step_cases h
  · exact hw
  · exact hrun
  · exact hrun
  · exact absurd hw (by simp [VisibilityHeartbeat.stop])

theorem sizes_of_step (h : w.step e = some w') :
    w'.heartbeat.interval = w.heartbeat.interval ∧
      w'.heartbeat.extension = w.heartbeat.extension := by
  obtain ⟨t, rfl, -, -, rfl⟩ | ⟨rfl, -, -, rfl⟩ | ⟨x, rfl, -, -, rfl⟩ | ⟨rfl, rfl⟩ := step_cases h
  all_goals exact ⟨rfl, rfl⟩

/-- **Each event of a running heartbeat is a step of the lease.** -/
theorem lease_step (h : w.step e = some w') (hw : w'.heartbeat.stopped = false)
    (rs : List (Except Exc Unit)) :
    Lease.Step (w.heartbeat.interval : K) w.heartbeat.extension (w.lease (misses rs))
      (w'.lease (misses (rs ++ calls [e]))) := by
  have hrun := running_of_step h hw
  obtain ⟨t, rfl, hfrom, hto, rfl⟩ | ⟨rfl, -, hdue, rfl⟩ | ⟨x, rfl, -, hdue, rfl⟩ | ⟨rfl, rfl⟩ :=
    step_cases h
  · have hto' : t ≤ w.wakes := by
      rcases hto with hstop | hto
      · rw [hrun] at hstop
        exact absurd hstop (by decide)
      · exact hto
    have hcalls : rs ++ calls [WatchEvent.wait t] = rs := List.append_nil rs
    rw [hcalls]
    exact Lease.Step.pass (l := w.lease (misses rs)) hfrom hto'
  · have hcalls : calls [(WatchEvent.beat (.ok ()) : WatchEvent K)] = [.ok ()] := rfl
    rw [hcalls, misses_ok]
    exact Lease.Step.renew (l := w.lease (misses rs)) hdue
  · have hcalls : calls [(WatchEvent.beat (.error x) : WatchEvent K)] = [.error x] := rfl
    rw [hcalls, misses_error]
    exact Lease.Step.miss (l := w.lease (misses rs)) hdue
  · exact absurd hw (by simp [VisibilityHeartbeat.stop])

variable [IsStrictOrderedRing K]

/-- What a run from `start` keeps while the heartbeat is not stopped: the lease is covered. -/
theorem covered_run {h : VisibilityHeartbeat} (hinterval : 0 ≤ h.interval) {now deadline : K}
    (hdeadline : now + h.extension ≤ deadline) (hrun : runs step (start h now deadline) es = some w)
    (hw : w.heartbeat.stopped = false) :
    Lease.Covered (h.interval : K) h.extension (w.lease (misses (calls es))) := by
  have hperiod : (0 : K) ≤ h.interval := Int.cast_nonneg hinterval
  have hkept := runs_invariant (P := fun v fs => v.heartbeat.interval = h.interval ∧
      v.heartbeat.extension = h.extension ∧ (v.heartbeat.stopped = false →
        Lease.Covered (h.interval : K) h.extension (v.lease (misses (calls fs))))) hrun
    ⟨rfl, rfl, fun _ => Lease.covered_granted hperiod hdeadline⟩ ?_
  · exact hkept.2.2 hw
  · intro fs v e v' _ ⟨hint, hext, hcov⟩ hstep
    obtain ⟨hint', hext'⟩ := sizes_of_step hstep
    refine ⟨hint'.trans hint, hext'.trans hext, fun hv' => ?_⟩
    have hlease := lease_step hstep hv' (calls fs)
    rw [hint, hext, ← calls_append] at hlease
    exact (hcov (running_of_step hstep hv')).step hperiod hlease

end Watch

variable [IsStrictOrderedRing K]

/-- **One failed heartbeat never exposes the message.** -/
theorem never_exposed {intervalSeconds extensionSeconds : Int} {now deadline : K} {w : Watch K}
    {es : List (WatchEvent K)}
    (hdeadline : now + (VisibilityHeartbeat.init intervalSeconds extensionSeconds).extension ≤ deadline)
    (hrun : runs Watch.step
      (Watch.start (.init intervalSeconds extensionSeconds) now deadline) es = some w)
    (hcalls : NeverTwice (calls es)) (hw : w.heartbeat.stopped = false) :
    w.now ≤ w.deadline ∧
      (2 * (VisibilityHeartbeat.init intervalSeconds extensionSeconds).interval <
          (VisibilityHeartbeat.init intervalSeconds extensionSeconds).extension →
        w.now < w.deadline) := by
  have hone := VisibilityHeartbeat.one_le_interval intervalSeconds extensionSeconds
  have htwo := VisibilityHeartbeat.two_intervals_le intervalSeconds extensionSeconds
  generalize VisibilityHeartbeat.init intervalSeconds extensionSeconds = h at *
  have hinterval : 0 ≤ h.interval := by omega
  have hperiod : (0 : K) ≤ h.interval := Int.cast_nonneg hinterval
  have hcov := Watch.covered_run hinterval hdeadline hrun hw
  have hmisses := misses_le_one hcalls
  constructor
  · refine hcov.held hperiod hmisses ?_
    have hcast : ((2 * h.interval : Int) : K) ≤ h.extension := Int.cast_le.mpr htwo
    push_cast at hcast ⊢
    linarith
  · intro hlong
    refine hcov.held_strictly hperiod hmisses ?_
    have hcast : ((2 * h.interval : Int) : K) < h.extension := Int.cast_lt.mpr hlong
    push_cast at hcast ⊢
    linarith

/-- With the constants of the module, one call fails between two that do not. -/
theorem never_exposed_default :
    ∃ w : Watch Int, runs Watch.step
        (Watch.start (.init heartbeatIntervalSeconds visibilityExtensionSeconds) 0 60)
        [.wait 15, .beat (.ok ()), .wait 30, .beat (.error (.clientError "Throttling" 400 "slow")),
          .wait 45, .beat (.ok ()), .wait 50] = some w ∧ w.now < w.deadline := by
  have hrun : runs Watch.step
      (Watch.start (.init heartbeatIntervalSeconds visibilityExtensionSeconds) (0 : Int) 60)
      [.wait 15, .beat (.ok ()), .wait 30, .beat (.error (.clientError "Throttling" 400 "slow")),
        .wait 45, .beat (.ok ()), .wait 50] = some ⟨⟨15, 60, false, 2⟩, 50, 60, 105⟩ := by
    rfl
  exact ⟨_, hrun, (never_exposed (by decide) hrun (by decide) rfl).2 (by decide)⟩

end PixelForge
