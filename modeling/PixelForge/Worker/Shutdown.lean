import Mathlib.Algebra.Order.Group.Defs
import Mathlib.Order.Interval.Finset.Basic
import PixelForge.Worker.Loop
import PixelForge.Worker.Process

/-! # Signals and the watchdog (`install_signal_handlers`, `_force_exit`)

The worker process beside a clock: its loop, the watchdogs that its signal handler has started, and
the exit code once it has one. The handler runs between any two steps of the loop, and what the loop
waits for may never end. The process cannot stop time: a `threading.Timer` has fired when its time is
past.
-/
set_option autoImplicit false

namespace PixelForge
open Effects

/-! ## The process -/

variable {K : Type}

/-- The loop, whether it hangs, the time, the times at which the watchdogs fire, and the exit code. -/
structure WorkerProcess (K : Type) where
  loop : WorkerLoop
  hung : Bool
  now : K
  watchdogs : List K
  exited : Option Nat

/-- The clock moves on, the handler runs for a signal, the loop takes a step of its own or hangs, a
watchdog fires, or `run` has returned and so does `main`. -/
inductive ProcessLabel (K : Type)
  | wait (until_ : K)
  | signal (name : String)
  | loop (l : LoopLabel)
  | hang
  | forceExit
  | leave

/-- Where the loop waits: for the queue, for a handling to end or for a pause to be over. -/
def Point.waits : Point → Bool
  | .receiving => true
  | .handling _ _ => true
  | .backingOff => true
  | .recovering => true
  | _ => false

def ProcessLabel.isSignal : ProcessLabel K → Bool
  | .signal _ => true
  | _ => false

/-- What the process does by itself while nothing hangs, apart from the time it takes. -/
def ProcessLabel.isOwn : ProcessLabel K → Bool
  | .wait _ => false
  | .signal _ => false
  | .hang => false
  | _ => true

/-- The part of the loop in a run: the handler calls `request_stop`. -/
def loopLabels : List (ProcessLabel K) → List LoopLabel
  | [] => []
  | .loop l :: ls => l :: loopLabels ls
  | .signal name :: ls => .requestStop name :: loopLabels ls
  | _ :: ls => loopLabels ls

theorem loopLabels_append (ls ls' : List (ProcessLabel K)) :
    loopLabels (ls ++ ls') = loopLabels ls ++ loopLabels ls' := by
  induction ls with
  | nil => rfl
  | cons l ls ih => cases l <;> simp [loopLabels, ih]

variable [AddCommGroup K] [LinearOrder K]

namespace WorkerProcess

/-- The handlers are installed and `worker.run()` is called. -/
def start (now : K) : WorkerProcess K := ⟨.start, false, now, [], none⟩

/-- `_force_exit`. -/
def forceExit (p : WorkerProcess K) : WorkerProcess K := { p with exited := some exitGraceExceeded }

/-- Time passes until `t`, unless a watchdog has fired before. -/
def elapse (p : WorkerProcess K) (t : K) : WorkerProcess K :=
  match (p.watchdogs.filter (· < t)).min? with
  | some d => { p with now := d }.forceExit
  | none => { p with now := t }

variable (grace : K)

/-- One step of a process that has not exited. -/
def step (p : WorkerProcess K) (l : ProcessLabel K) : Option (WorkerProcess K) :=
  if p.exited.isSome = true then none
  else match l with
    | .wait t => if p.now < t then some (p.elapse t) else none
    | .signal name =>
      some { p with loop := p.loop.requestStop name, watchdogs := (p.now + grace) :: p.watchdogs }
    | .loop l =>
      if p.hung = false ∧ l.isOwn = true then (p.loop.step l).map fun w => { p with loop := w } else none
    | .hang => if p.hung = false ∧ p.loop.point.waits = true then some { p with hung := true } else none
    | .forceExit => if p.now ∈ p.watchdogs then some p.forceExit else none
    | .leave => if p.loop.point = .returned then some { p with exited := some 0 } else none

/-- The steps, one rule for each. -/
inductive Moves (p : WorkerProcess K) : ProcessLabel K → WorkerProcess K → Prop
  | wait {t : K} (hlater : p.now < t) (hdue : ∀ d ∈ p.watchdogs, t ≤ d) :
      Moves p (.wait t) { p with now := t }
  | overdue {t d : K} (hlater : p.now < t) (hdog : d ∈ p.watchdogs) (hbefore : d < t)
      (hfirst : ∀ d' ∈ p.watchdogs, d ≤ d') : Moves p (.wait t) { p with now := d }.forceExit
  | signal (name : String) : Moves p (.signal name)
      { p with loop := p.loop.requestStop name, watchdogs := (p.now + grace) :: p.watchdogs }
  | loop {l : LoopLabel} {w : WorkerLoop} (hgoes : p.hung = false) (hown : l.isOwn = true)
      (hstep : p.loop.step l = some w) : Moves p (.loop l) { p with loop := w }
  | hang (hgoes : p.hung = false) (hwaits : p.loop.point.waits = true) : Moves p .hang { p with hung := true }
  | forceExit (hdue : p.now ∈ p.watchdogs) : Moves p .forceExit p.forceExit
  | leave (hreturned : p.loop.point = .returned) : Moves p .leave { p with exited := some 0 }

variable {grace} {p p' : WorkerProcess K} {l : ProcessLabel K} {ls : List (ProcessLabel K)}

omit [AddCommGroup K] in
theorem elapse_of_due {t d : K} (hdog : d ∈ p.watchdogs) (hbefore : d < t)
    (hfirst : ∀ d' ∈ p.watchdogs, d ≤ d') : p.elapse t = { p with now := d }.forceExit := by
  have hmin : (p.watchdogs.filter (· < t)).min? = some d :=
    List.min?_eq_some_iff.mpr ⟨List.mem_filter.mpr ⟨hdog, decide_eq_true hbefore⟩,
      fun d' hd' => hfirst d' (List.mem_filter.mp hd').1⟩
  rw [elapse, hmin]

omit [AddCommGroup K] in
theorem elapse_of_early {t : K} (hdue : ∀ d ∈ p.watchdogs, t ≤ d) : p.elapse t = { p with now := t } := by
  have hnone : (p.watchdogs.filter (· < t)).min? = none :=
    List.min?_eq_none_iff.mpr (List.filter_eq_nil_iff.mpr fun d hd h =>
      absurd (of_decide_eq_true h) (not_lt_of_ge (hdue d hd)))
  rw [elapse, hnone]

theorem moves_of_wait {t : K} (hlater : p.now < t) : Moves grace p (.wait t) (p.elapse t) := by
  cases hmin : (p.watchdogs.filter (· < t)).min? with
  | none =>
    have hdue : ∀ d ∈ p.watchdogs, t ≤ d := fun d hd => le_of_not_gt fun hlt =>
      List.filter_eq_nil_iff.mp (List.min?_eq_none_iff.mp hmin) d hd (decide_eq_true hlt)
    rw [elapse_of_early hdue]
    exact .wait hlater hdue
  | some d =>
    obtain ⟨hmem, hleast⟩ := List.min?_eq_some_iff.mp hmin
    obtain ⟨hdog, hbefore⟩ := List.mem_filter.mp hmem
    have hfirst : ∀ d' ∈ p.watchdogs, d ≤ d' := fun d' hd' => by
      by_cases hd't : d' < t
      · exact hleast d' (List.mem_filter.mpr ⟨hd', decide_eq_true hd't⟩)
      · exact (of_decide_eq_true hbefore).le.trans (le_of_not_gt hd't)
    rw [elapse_of_due hdog (of_decide_eq_true hbefore) hfirst]
    exact .overdue hlater hdog (of_decide_eq_true hbefore) hfirst

theorem moves_of_step (h : p.step grace l = some p') : p.exited = none ∧ Moves grace p l p' := by
  unfold step at h
  split at h
  · cases h
  · rename_i halive
    refine ⟨Option.not_isSome_iff_eq_none.mp halive, ?_⟩
    cases l with
    | wait t =>
      obtain ⟨hlater, rfl⟩ := of_guarded h
      exact moves_of_wait hlater
    | signal name =>
      obtain rfl := Option.some.inj h
      exact .signal name
    | loop l =>
      obtain ⟨⟨hgoes, hown⟩, h⟩ := Option.ite_none_right_eq_some.mp h
      obtain ⟨w, hstep, rfl⟩ := Option.map_eq_some_iff.mp h
      exact .loop hgoes hown hstep
    | hang =>
      obtain ⟨⟨hgoes, hwaits⟩, rfl⟩ := of_guarded h
      exact .hang hgoes hwaits
    | forceExit =>
      obtain ⟨hdue, rfl⟩ := of_guarded h
      exact .forceExit hdue
    | leave =>
      obtain ⟨hreturned, rfl⟩ := of_guarded h
      exact .leave hreturned

/-- A run of the process is a run of its loop. -/
theorem loop_run {p₀ : WorkerProcess K} (h : runs (step grace) p₀ ls = some p) :
    runs WorkerLoop.step p₀.loop (loopLabels ls) = some p.loop := by
  refine runs_invariant (P := fun q ms => runs WorkerLoop.step p₀.loop (loopLabels ms) = some q.loop)
    h rfl ?_
  intro ms q l q' _ ih hstep
  rw [loopLabels_append]
  refine runs_append.mpr ⟨q.loop, ih, ?_⟩
  cases (moves_of_step hstep).2 with
  | signal name => rfl
  | loop hgoes hown hl => exact runs_cons.mpr ⟨_, hl, rfl⟩
  | _ => rfl

/-! ## Before the first signal -/

/-- The loop returns only once it has been asked to stop. -/
theorem returned_run {w : WorkerLoop} {ms : List LoopLabel}
    (h : runs WorkerLoop.step WorkerLoop.start ms = some w) :
    w.point = .returned → w.stopping = true := by
  refine runs_invariant (P := fun v _ => v.point = .returned → v.stopping = true) h
    (fun hpoint => nomatch hpoint) ?_
  intro ms v l v' _ ih hstep hpoint
  cases WorkerLoop.moves_of_step hstep with
  | requestStop reason =>
    rw [WorkerLoop.point_requestStop] at hpoint
    rw [WorkerLoop.requestStop_of_stopping (ih hpoint)]
    exact ih hpoint
  | leave _ hstop => exact hstop
  | refused _ hp => rcases hp with rfl | rfl <;> cases hpoint
  | _ => cases hpoint

/-- Without a signal the worker runs on. -/
theorem running_unsignalled {t₀ : K} (h : ∀ l ∈ ls, l.isSignal = false)
    (hrun : runs (step grace) (start t₀) ls = some p) :
    p.exited = none ∧ p.watchdogs = [] ∧ p.loop.stopping = false := by
  refine runs_invariant (P := fun q ms => (∀ l ∈ ms, l.isSignal = false) →
    q.exited = none ∧ q.watchdogs = [] ∧ q.loop.stopping = false) hrun
    (fun _ => ⟨rfl, rfl, rfl⟩) ?_ h
  intro ms q l q' hq ih hstep hms
  obtain ⟨hexited, hdogs, hstopping⟩ := ih fun l' hl' => hms l' (List.mem_append_left _ hl')
  cases (moves_of_step hstep).2 with
  | wait => exact ⟨hexited, hdogs, hstopping⟩
  | overdue _ hdog =>
    rw [hdogs] at hdog
    cases hdog
  | hang => exact ⟨hexited, hdogs, hstopping⟩
  | signal name =>
    exact absurd (hms _ (List.mem_append_right _ List.mem_cons_self)) (by simp [ProcessLabel.isSignal])
  | loop hgoes hown hl => exact ⟨hexited, hdogs, WorkerLoop.running_step hstopping hown hl⟩
  | forceExit hdue =>
    rw [hdogs] at hdue
    cases hdue
  | leave hreturned =>
    have hstop := returned_run (loop_run hq) hreturned
    rw [hstopping] at hstop
    cases hstop

/-! ## After it -/

/-- A watchdog is due at `t` and none is due before. -/
structure Doomed (t : K) (p : WorkerProcess K) : Prop where
  inTime : p.now ≤ t
  first : t ∈ p.watchdogs
  least : ∀ d ∈ p.watchdogs, t ≤ d
  forced : p.exited = some exitGraceExceeded → p.now = t

theorem Doomed.step [IsOrderedAddMonoid K] {t₁ : K} (h : Doomed (t₁ + grace) p) (hfrom : t₁ ≤ p.now)
    (hstep : p.step grace l = some p') : Doomed (t₁ + grace) p' ∧ t₁ ≤ p'.now := by
  obtain ⟨halive, hmoves⟩ := moves_of_step hstep
  have hforced : p.exited ≠ some exitGraceExceeded := by
    rw [halive]
    exact fun h => nomatch h
  cases hmoves with
  | wait hlater hdue =>
    exact ⟨⟨hdue _ h.first, h.first, h.least, fun he => absurd he hforced⟩, hfrom.trans hlater.le⟩
  | @overdue t d hlater hdog hbefore hfirst =>
    obtain rfl : d = t₁ + grace := le_antisymm (hfirst _ h.first) (h.least d hdog)
    exact ⟨⟨le_rfl, h.first, h.least, fun _ => rfl⟩, hfrom.trans h.inTime⟩
  | signal name =>
    refine ⟨⟨h.inTime, List.mem_cons_of_mem _ h.first, fun d hd => ?_, fun he => absurd he hforced⟩,
      hfrom⟩
    obtain rfl | hd := List.mem_cons.mp hd
    · exact add_le_add_left hfrom grace
    · exact h.least d hd
  | loop => exact ⟨⟨h.inTime, h.first, h.least, fun he => absurd he hforced⟩, hfrom⟩
  | hang => exact ⟨⟨h.inTime, h.first, h.least, fun he => absurd he hforced⟩, hfrom⟩
  | forceExit hdue =>
    exact ⟨⟨h.inTime, h.first, h.least, fun _ => le_antisymm h.inTime (h.least _ hdue)⟩, hfrom⟩
  | leave => exact ⟨⟨h.inTime, h.first, h.least, fun he => nomatch he⟩, hfrom⟩

theorem doomed_run [IsOrderedAddMonoid K] {t₁ : K} {p₁ : WorkerProcess K}
    (h : Doomed (t₁ + grace) p₁) (hfrom : t₁ ≤ p₁.now) (hrun : runs (step grace) p₁ ls = some p) :
    Doomed (t₁ + grace) p ∧ t₁ ≤ p.now :=
  runs_invariant (P := fun q _ => Doomed (t₁ + grace) q ∧ t₁ ≤ q.now) hrun ⟨h, hfrom⟩
    fun _ _ _ _ _ hq hstep => hq.1.step hq.2 hstep

/-- Whatever its loop does, time takes it to its exit. -/
theorem Doomed.elapses {t t' : K} (h : Doomed t p) (halive : p.exited = none) (hpast : t < t') :
    p.step grace (.wait t') = some { p with now := t, exited := some exitGraceExceeded } := by
  have helapse : p.elapse t' = { p with now := t }.forceExit := elapse_of_due h.first hpast h.least
  simp only [WorkerProcess.step, halive, Option.isSome_none, Bool.false_eq_true, if_false,
    if_pos (h.inTime.trans_lt hpast), helapse, forceExit]

/-! ## Exits -/

/-- How many steps of its own a stopping process takes at most. -/
def left (p : WorkerProcess K) : Nat := if p.exited.isSome = true then 0 else p.loop.point.left + 1

omit [AddCommGroup K] [LinearOrder K] in
theorem left_of_alive (halive : p.exited = none) : p.left = p.loop.point.left + 1 := by
  rw [left, halive]
  rfl

theorem left_step (hstop : p.loop.stopping = true) (hgoes : p.hung = false) (hl : l.isOwn = true)
    (h : p.step grace l = some p') : (p'.loop.stopping = true ∧ p'.hung = false) ∧ p'.left < p.left := by
  obtain ⟨halive, hmoves⟩ := moves_of_step h
  rw [left_of_alive halive]
  cases hmoves with
  | wait => cases hl
  | overdue => cases hl
  | signal => cases hl
  | hang => cases hl
  | @loop l w _ hown hstep =>
    have hlower := WorkerLoop.left_step hstop hown hstep
    have hleft' : ({ p with loop := w } : WorkerProcess K).left = w.point.left + 1 := left_of_alive halive
    exact ⟨⟨(WorkerLoop.stopping_step hstop hstep).1, hgoes⟩, by omega⟩
  | forceExit => exact ⟨⟨hstop, hgoes⟩, Nat.succ_pos _⟩
  | leave => exact ⟨⟨hstop, hgoes⟩, Nat.succ_pos _⟩

theorem live (grace : K) (hgoes : p.hung = false) :
    p.exited.isSome = true ∨ ∃ l, l.isOwn = true ∧ (p.step grace l).isSome = true := by
  cases hexited : p.exited with
  | some code => exact .inl rfl
  | none =>
    obtain hreturned | ⟨l, hown, hstep⟩ := p.loop.live
    · exact .inr ⟨.leave, rfl, by simp [step, hexited, hreturned]⟩
    · obtain ⟨w, hw⟩ := Option.isSome_iff_exists.mp hstep
      exact .inr ⟨.loop l, rfl, by simp [step, hexited, hgoes, hown, hw]⟩

/-- It exits by its own steps, while nothing hangs. -/
theorem exits_of_stopping (hstop : p.loop.stopping = true) (hgoes : p.hung = false) :
    Inevitable (step grace) ProcessLabel.isOwn (fun q => q.exited.isSome = true) p :=
  inevitable_of_measure (P := fun q => q.loop.stopping = true ∧ q.hung = false) left
    (fun _ hq => live grace hq.2) (fun _ _ _ hq hl hstep => left_step hq.1 hq.2 hl hstep) ⟨hstop, hgoes⟩

theorem Doomed.live {t : K} (grace : K) (h : Doomed t p) :
    p.exited.isSome = true ∨ ∃ l, ProcessLabel.isSignal l = false ∧ (p.step grace l).isSome = true := by
  cases hexited : p.exited with
  | some code => exact .inl rfl
  | none =>
    obtain hnow | hnow := h.inTime.eq_or_lt
    · exact .inr ⟨.forceExit, rfl, by simp [WorkerProcess.step, hexited, hnow ▸ h.first]⟩
    · exact .inr ⟨.wait t, rfl, by simp [WorkerProcess.step, hexited, hnow]⟩

section Ticking

variable [LocallyFiniteOrder K]

/-- How many steps are left until `t`, ticks of the clock included. -/
def leftUntil (t : K) (p : WorkerProcess K) : Nat :=
  p.left + (Finset.Ioc p.now t).card + if p.hung = true then 0 else 1

theorem leftUntil_step {t : K} (h : Doomed t p) (hstop : p.loop.stopping = true)
    (hl : l.isSignal = false) (hstep : p.step grace l = some p') :
    p'.loop.stopping = true ∧ leftUntil t p' < leftUntil t p := by
  obtain ⟨halive, hmoves⟩ := moves_of_step hstep
  have hleft := left_of_alive halive
  cases hmoves with
  | @wait t' hlater hdue =>
    have hless : (Finset.Ioc t' t).card < (Finset.Ioc p.now t).card := by
      refine Finset.card_lt_card (Finset.ssubset_iff_of_subset (Finset.Ioc_subset_Ioc_left hlater.le)
        |>.mpr ⟨t', Finset.mem_Ioc.mpr ⟨hlater, hdue _ h.first⟩, fun hmem => ?_⟩)
      exact lt_irrefl _ (Finset.mem_Ioc.mp hmem).1
    have hsame : ({ p with now := t' } : WorkerProcess K).left = p.left := rfl
    exact ⟨hstop, by simp only [leftUntil, hsame]; omega⟩
  | @overdue t' d hlater hdog hbefore hfirst =>
    obtain rfl : d = t := le_antisymm (hfirst _ h.first) (h.least d hdog)
    have hzero : ({ p with now := d }.forceExit : WorkerProcess K).left = 0 := rfl
    have hnone : (Finset.Ioc d d).card = 0 := by simp
    refine ⟨hstop, ?_⟩
    show _ + (Finset.Ioc d d).card + (if p.hung = true then 0 else 1) < _
    rw [hzero, hnone, leftUntil]
    omega
  | signal => cases hl
  | @loop l w _ hown hl' =>
    have hlower := WorkerLoop.left_step hstop hown hl'
    have hleft' : ({ p with loop := w } : WorkerProcess K).left = w.point.left + 1 := left_of_alive halive
    exact ⟨(WorkerLoop.stopping_step hstop hl').1, by simp only [leftUntil]; omega⟩
  | hang hgoes =>
    have hsame : ({ p with hung := true } : WorkerProcess K).left = p.left := rfl
    exact ⟨hstop, by simp [leftUntil, hsame, hgoes]⟩
  | forceExit =>
    have hzero : p.forceExit.left = 0 := rfl
    refine ⟨hstop, ?_⟩
    show _ + (Finset.Ioc p.now t).card + (if p.hung = true then 0 else 1) < _
    rw [hzero, leftUntil]
    omega
  | leave =>
    have hzero : ({ p with exited := some 0 } : WorkerProcess K).left = 0 := rfl
    exact ⟨hstop, by simp only [leftUntil, hzero]; omega⟩

/-- Time and the watchdog see to it that it exits, whatever the loop does and also when it hangs. -/
theorem exits_of_doomed [IsOrderedAddMonoid K] {t₁ : K} (h : Doomed (t₁ + grace) p) (hfrom : t₁ ≤ p.now)
    (hstop : p.loop.stopping = true) :
    Inevitable (step grace) (fun l => !l.isSignal) (fun q => q.exited.isSome = true) p := by
  refine inevitable_of_measure
    (P := fun q => (Doomed (t₁ + grace) q ∧ t₁ ≤ q.now) ∧ q.loop.stopping = true)
    (leftUntil (t₁ + grace)) (fun q hq => ?_) (fun q l q' hq hl hstep => ?_) ⟨⟨h, hfrom⟩, hstop⟩
  · obtain hexited | ⟨l, hl, hstep⟩ := hq.1.1.live grace
    · exact .inl hexited
    · exact .inr ⟨l, by rw [hl]; rfl, hstep⟩
  · obtain ⟨hstop', hless⟩ := leftUntil_step hq.1.1 hq.2 (by simpa using hl) hstep
    exact ⟨⟨hq.1.1.step hq.1.2 hstep, hstop'⟩, hless⟩

end Ticking

/-- Only `main` gives the exit code 0. -/
theorem returned_of_zero {t₀ : K} (h : runs (step grace) (start t₀) ls = some p)
    (hzero : p.exited = some 0) : p.loop.point = .returned := by
  refine runs_invariant (P := fun q _ => q.exited = some 0 → q.loop.point = .returned) h
    (fun h => nomatch h) ?_ hzero
  intro ms q l q' _ _ hstep hzero
  obtain ⟨halive, hmoves⟩ := moves_of_step hstep
  have hnone : q.exited ≠ some 0 := by
    rw [halive]
    exact fun h => nomatch h
  cases hmoves with
  | forceExit => cases hzero
  | overdue => cases hzero
  | leave hreturned => exact hreturned
  | _ => exact absurd hzero hnone

/-- It hangs where its loop waits, and stays there. -/
theorem waits_of_hung {t₀ : K} (h : runs (step grace) (start t₀) ls = some p) (hhung : p.hung = true) :
    p.loop.point.waits = true := by
  refine runs_invariant (P := fun q _ => q.hung = true → q.loop.point.waits = true) h
    (fun h => nomatch h) ?_ hhung
  intro ms q l q' _ ih hstep hhung
  cases (moves_of_step hstep).2 with
  | signal name =>
    rw [WorkerLoop.point_requestStop]
    exact ih hhung
  | loop hgoes =>
    rw [hgoes] at hhung
    cases hhung
  | hang _ hwaits => exact hwaits
  | _ => exact ih hhung

end WorkerProcess

namespace Surroundings

def oddMessage : RawMessage := ⟨some "r-1", some "not json"⟩

/-- SIGTERM during a long poll, SIGINT while the message it has brought is handled, and the handling
never ends. -/
def beforeSignal : List (ProcessLabel ℤ) := [.loop .test, .loop .receive, .wait 5]

def afterSignal : List (ProcessLabel ℤ) :=
  [.wait 20, .loop (.received (.ok [oddMessage])), .loop (.handle oddMessage), .hang, .wait 28,
    .signal "SIGINT", .wait 90]

end Surroundings

end PixelForge
