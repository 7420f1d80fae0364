import PixelForge.Effects.Traces
import PixelForge.Worker.Consumer

/-! # The poll loop and its shutdown (`Worker.run`, `Worker.run_once`)

`run` as a machine of program points, one label for each thing that happens: a step of the loop,
the end of a `receive` or of a `handle_message` with its result, or a `request_stop` from a signal
handler, which can come between any two of them. An exception is an `Exception` of Python; handlings
and sleeps are taken to end.
-/
set_option autoImplicit false

namespace PixelForge

open Effects

/-! ## The machine -/

/-- Where `run` is. -/
inductive Point
  | testing
  | polling
  | receiving
  | looping (messages : List RawMessage)
  | handling (message : RawMessage) (rest : List RawMessage)
  | backingOff
  | recovering
  | returned
deriving DecidableEq, Repr

/-- The fields of `Worker` that `run` reads and `request_stop` sets, beside the program point. -/
structure WorkerLoop where
  stopping : Bool
  stopReason : Option String
  point : Point
deriving DecidableEq, Repr

/-- What happens next. -/
inductive LoopLabel
  | requestStop (reason : String)
  | test
  | receive
  | received (result : Except Exc (List RawMessage))
  | handle (message : RawMessage)
  | handled (message : RawMessage) (result : Except Exc Outcome)
  | polled
  | slept

namespace WorkerLoop

/-- A new worker whose `run` is called. -/
def start : WorkerLoop := ⟨false, none, .testing⟩

def requestStop (w : WorkerLoop) (reason : String) : WorkerLoop :=
  if w.stopping = false then { w with stopping := true, stopReason := some reason } else w

/-- `while not self._stopping`. -/
def test (w : WorkerLoop) : Point := if w.stopping = true then .returned else .polling

/-- Where `run` goes on when the iteration ended with this result: `except Exception` takes every
exception. -/
def afterOnce {α : Type} : Except Exc α → Point
  | .ok _ => .testing
  | .error _ => .recovering

/-- Where `run_once` goes on after `receive`. Its `except` clause takes the dependency errors; the
others end the iteration. -/
def afterReceive : Except Exc (List RawMessage) → Point
  | .ok messages => .looping messages
  | .error e => if e.isDependency = true then .backingOff else afterOnce (α := Nat) (.error e)

/-- Where the `for` loop goes on after `handle_message`. -/
def afterHandle (rest : List RawMessage) : Except Exc Outcome → Point
  | .ok _ => .looping rest
  | .error e => afterOnce (α := Nat) (.error e)

/-- `max_messages=1`: a receive returns at most one message. -/
def atMostOne : Except Exc (List RawMessage) → Bool
  | .ok messages => decide (messages.length ≤ 1)
  | .error _ => true

/-- One step. -/
def step (w : WorkerLoop) : LoopLabel → Option WorkerLoop
  | .requestStop reason => some (w.requestStop reason)
  | .test => if w.point = .testing then some { w with point := w.test } else none
  | .receive => if w.point = .polling then some { w with point := .receiving } else none
  | .received r =>
    if w.point = .receiving ∧ atMostOne r = true then some { w with point := afterReceive r }
    else none
  | .handle m =>
    match w.point with
    | .looping (m' :: rest) => if m = m' then some { w with point := .handling m rest } else none
    | _ => none
  | .handled m r =>
    match w.point with
    | .handling m' rest => if m = m' then some { w with point := afterHandle rest r } else none
    | _ => none
  | .polled => if w.point = .looping [] then some { w with point := afterOnce (.ok 0) } else none
  | .slept =>
    if w.point = .backingOff ∨ w.point = .recovering then some { w with point := .testing }
    else none

/-- The steps of the machine, one rule for each. -/
inductive Moves (w : WorkerLoop) : LoopLabel → WorkerLoop → Prop
  | requestStop (reason : String) : Moves w (.requestStop reason) (w.requestStop reason)
  | leave (hpoint : w.point = .testing) (hstop : w.stopping = true) :
      Moves w .test { w with point := .returned }
  | enter (hpoint : w.point = .testing) (hstop : w.stopping = false) :
      Moves w .test { w with point := .polling }
  | receive (hpoint : w.point = .polling) : Moves w .receive { w with point := .receiving }
  | messages {ms : List RawMessage} (hpoint : w.point = .receiving) (hone : ms.length ≤ 1) :
      Moves w (.received (.ok ms)) { w with point := .looping ms }
  | refused {e : Exc} (hpoint : w.point = .receiving) {p : Point}
      (hp : p = .backingOff ∨ p = .recovering) :
      Moves w (.received (.error e)) { w with point := p }
  | handle {m : RawMessage} {rest : List RawMessage} (hpoint : w.point = .looping (m :: rest)) :
      Moves w (.handle m) { w with point := .handling m rest }
  | handled {m : RawMessage} {rest : List RawMessage} {o : Outcome}
      (hpoint : w.point = .handling m rest) :
      Moves w (.handled m (.ok o)) { w with point := .looping rest }
  | raised {m : RawMessage} {rest : List RawMessage} {e : Exc}
      (hpoint : w.point = .handling m rest) :
      Moves w (.handled m (.error e)) { w with point := .recovering }
  | polled (hpoint : w.point = .looping []) : Moves w .polled { w with point := .testing }
  | slept (hpoint : w.point = .backingOff ∨ w.point = .recovering) :
      Moves w .slept { w with point := .testing }

variable {w w' : WorkerLoop} {l : LoopLabel} {ls : List LoopLabel}

theorem moves_of_step (h : w.step l = some w') : Moves w l w' := by
  cases l with
  | requestStop reason =>
    rw [← Option.some.inj h]
    exact .requestStop reason
  | test =>
    obtain ⟨hpoint, rfl⟩ := of_guarded h
    by_cases hstop : w.stopping = true
    · rw [test, if_pos hstop]
      exact .leave hpoint hstop
    · rw [test, if_neg hstop]
      exact .enter hpoint (Bool.eq_false_iff.mpr hstop)
  | receive =>
    obtain ⟨hpoint, rfl⟩ := of_guarded h
    exact .receive hpoint
  | received r =>
    obtain ⟨⟨hpoint, hone⟩, rfl⟩ := of_guarded h
    cases r with
    | ok ms => exact .messages hpoint (of_decide_eq_true hone)
    | error e =>
      refine .refused hpoint ?_
      by_cases he : e.isDependency = true
      · exact .inl (if_pos he)
      · exact .inr (if_neg he)
  | handle m =>
    simp only [step] at h
    split at h
    · next m' rest hpoint =>
      obtain ⟨rfl, rfl⟩ := of_guarded h
      exact .handle hpoint
    · exact absurd h (by simp)
  | handled m r =>
    simp only [step] at h
    split at h
    · next m' rest hpoint =>
      obtain ⟨rfl, rfl⟩ := of_guarded h
      cases r with
      | ok o => exact .handled hpoint
      | error e => exact .raised hpoint
    · exact absurd h (by simp)
  | polled =>
    obtain ⟨hpoint, rfl⟩ := of_guarded h
    exact .polled hpoint
  | slept =>
    obtain ⟨hpoint, rfl⟩ := of_guarded h
    exact .slept hpoint

end WorkerLoop

/-! ## Messages -/

/-- The messages that the receives of a run returned, in order. -/
def receivedIn : List LoopLabel → List RawMessage
  | [] => []
  | .received (.ok ms) :: ls => ms ++ receivedIn ls
  | _ :: ls => receivedIn ls

/-- The messages whose `handle_message` was called and has ended, in order. -/
def handledIn : List LoopLabel → List RawMessage
  | [] => []
  | .handled m _ :: ls => m :: handledIn ls
  | _ :: ls => handledIn ls

theorem receivedIn_snoc (ls : List LoopLabel) (l : LoopLabel) :
    receivedIn (ls ++ [l]) = receivedIn ls ++ receivedIn [l] := by
  induction ls with
  | nil => rfl
  | cons l' ls ih =>
    cases l' with
    | received r => cases r <;> simp [receivedIn, ih]
    | _ => simp [receivedIn, ih]

theorem handledIn_snoc (ls : List LoopLabel) (l : LoopLabel) :
    handledIn (ls ++ [l]) = handledIn ls ++ handledIn [l] := by
  induction ls with
  | nil => rfl
  | cons l' ls ih => cases l' <;> simp [handledIn, ih]

/-- The messages that `run_once` still has in hand. -/
def Point.inHand : Point → List RawMessage
  | .looping ms => ms
  | .handling m rest => m :: rest
  | _ => []

namespace WorkerLoop

variable {w w' : WorkerLoop} {l : LoopLabel} {ls : List LoopLabel}

theorem point_requestStop (w : WorkerLoop) (reason : String) :
    (w.requestStop reason).point = w.point := by
  unfold requestStop
  split <;> rfl

/-- **Each step accounts for the messages in hand.** -/
theorem inHand_step (hone : w.point.inHand.length ≤ 1) (h : w.step l = some w') :
    w'.point.inHand.length ≤ 1 ∧
      w.point.inHand ++ receivedIn [l] = handledIn [l] ++ w'.point.inHand := by
  cases moves_of_step h with
  | requestStop reason =>
    rw [point_requestStop]
    exact ⟨hone, by simp [receivedIn, handledIn]⟩
  | refused hpoint hp =>
    rw [hpoint]
    rcases hp with rfl | rfl <;> exact ⟨Nat.zero_le 1, rfl⟩
  | slept hpoint =>
    refine ⟨Nat.zero_le 1, ?_⟩
    rcases hpoint with hpoint | hpoint <;> rw [hpoint] <;> rfl
  | @raised m rest e hpoint =>
    rw [hpoint, Point.inHand, List.length_cons] at hone
    rw [hpoint]
    have hlen : rest.length = 0 := by omega
    simp [Point.inHand, receivedIn, handledIn, List.length_eq_zero_iff.mp hlen]
  | handled hpoint =>
    rw [hpoint, Point.inHand, List.length_cons] at hone
    rw [hpoint]
    simp only [Point.inHand, receivedIn, handledIn]
    exact ⟨by omega, by simp⟩
  | leave hpoint => simp [hpoint, Point.inHand, receivedIn, handledIn]
  | enter hpoint => simp [hpoint, Point.inHand, receivedIn, handledIn]
  | receive hpoint => simp [hpoint, Point.inHand, receivedIn, handledIn]
  | messages hpoint hms => simp [hpoint, Point.inHand, receivedIn, handledIn, hms]
  | handle hpoint =>
    rw [hpoint] at hone ⊢
    exact ⟨hone, List.append_nil _⟩
  | polled hpoint => simp [hpoint, Point.inHand, receivedIn, handledIn]

/-- **What a run has received it has handled, the message in hand apart.** -/
theorem inHand_run (h : runs step start ls = some w) :
    w.point.inHand.length ≤ 1 ∧ receivedIn ls = handledIn ls ++ w.point.inHand := by
  refine runs_invariant (P := fun v ms => v.point.inHand.length ≤ 1 ∧
    receivedIn ms = handledIn ms ++ v.point.inHand) h ⟨Nat.zero_le 1, rfl⟩ ?_
  intro ms v l v' _ ⟨hone, hmess⟩ hstep
  obtain ⟨hone', hacc⟩ := inHand_step hone hstep
  refine ⟨hone', ?_⟩
  rw [receivedIn_snoc, handledIn_snoc, hmess, List.append_assoc, hacc, List.append_assoc]

end WorkerLoop

/-! ## Stopping -/

/-- The labels of the loop itself. -/
def LoopLabel.isOwn : LoopLabel → Bool
  | .requestStop _ => false
  | _ => true

/-- How many receives a run begins. -/
def begunIn : List LoopLabel → Nat
  | [] => 0
  | .receive :: ls => begunIn ls + 1
  | _ :: ls => begunIn ls

theorem begunIn_snoc (ls : List LoopLabel) (l : LoopLabel) :
    begunIn (ls ++ [l]) = begunIn ls + begunIn [l] := by
  induction ls with
  | nil => simp [begunIn]
  | cons l' ls ih =>
    rw [List.cons_append]
    cases l' with
    | receive =>
      simp only [begunIn, ih]
      omega
    | _ => simp only [begunIn, ih]

/-- The receives that `run` will still begin once it is asked to stop: one, if it has tested the
flag and not begun the receive. -/
def Point.due : Point → Nat
  | .polling => 1
  | _ => 0

/-- How many of its own steps `run` takes at most from here, once it is asked to stop. -/
def Point.left : Point → Nat
  | .testing => 1
  | .polling => 6
  | .receiving => 5
  | .looping ms => 2 * ms.length + 2
  | .handling _ rest => 2 * rest.length + 3
  | .backingOff => 2
  | .recovering => 2
  | .returned => 0

namespace WorkerLoop

variable {w w' : WorkerLoop} {l : LoopLabel} {ls : List LoopLabel}

/-- Before the first request nothing stops the loop. -/
theorem running_step (hw : w.stopping = false) (hl : l.isOwn = true) (h : w.step l = some w') :
    w'.stopping = false := by
  cases moves_of_step h with
  | requestStop reason => exact absurd hl Bool.false_ne_true
  | _ => exact hw

theorem running_run (hls : ∀ l ∈ ls, l.isOwn = true) (h : runs step start ls = some w) :
    w.stopping = false := by
  refine runs_invariant (P := fun v ms => (∀ l ∈ ms, l.isOwn = true) → v.stopping = false) h
    (fun _ => rfl) ?_ hls
  intro ms v l v' _ ih hstep hms
  have hv := ih fun l' hl' => hms l' (List.mem_append_left _ hl')
  exact running_step hv (hms l (List.mem_append_right _ (List.mem_singleton_self l))) hstep

theorem requestStop_of_stopping (hw : w.stopping = true) (reason : String) :
    w.requestStop reason = w := by
  rw [requestStop, if_neg]
  rw [hw]
  decide

/-- **A step of a loop that is asked to stop**: the reason stays, and a receive is begun only if it
was due. -/
theorem stopping_step (hw : w.stopping = true) (h : w.step l = some w') :
    w'.stopping = true ∧ w'.stopReason = w.stopReason ∧
      begunIn [l] + w'.point.due ≤ w.point.due := by
  cases moves_of_step h with
  | requestStop reason =>
    rw [requestStop_of_stopping hw]
    exact ⟨hw, rfl, by simp [begunIn]⟩
  | enter hpoint hstop =>
    rw [hw] at hstop
    exact absurd hstop (by decide)
  | refused hpoint hp => rcases hp with rfl | rfl <;> exact ⟨hw, rfl, Nat.zero_le _⟩
  | receive hpoint =>
    rw [hpoint]
    exact ⟨hw, rfl, le_refl 1⟩
  | _ => exact ⟨hw, rfl, Nat.zero_le _⟩

theorem stopping_run (hw : w.stopping = true) (h : runs step w ls = some w') :
    w'.stopping = true ∧ w'.stopReason = w.stopReason ∧ begunIn ls ≤ 1 := by
  have hkept := runs_invariant (P := fun v ms => v.stopping = true ∧ v.stopReason = w.stopReason ∧
    begunIn ms + v.point.due ≤ w.point.due) h ⟨hw, rfl, by simp [begunIn]⟩ ?_
  · have hdue : w.point.due ≤ 1 := by cases w.point <;> simp [Point.due]
    exact ⟨hkept.1, hkept.2.1, by omega⟩
  · intro ms v l v' _ ⟨hv, hreason, hbegun⟩ hstep
    obtain ⟨hv', hreason', hbegun'⟩ := stopping_step hv hstep
    refine ⟨hv', hreason'.trans hreason, ?_⟩
    rw [begunIn_snoc]
    omega

/-- Each of its own steps brings a loop that is asked to stop nearer to its return. -/
theorem left_step (hw : w.stopping = true) (hl : l.isOwn = true) (h : w.step l = some w') :
    w'.point.left < w.point.left := by
  cases moves_of_step h with
  | requestStop reason => exact absurd hl Bool.false_ne_true
  | leave hpoint => simp [hpoint, Point.left]
  | enter hpoint hstop =>
    rw [hw] at hstop
    exact absurd hstop (by decide)
  | receive hpoint => simp [hpoint, Point.left]
  | messages hpoint hone =>
    simp only [hpoint, Point.left]
    omega
  | refused hpoint hp => rcases hp with rfl | rfl <;> simp [hpoint, Point.left]
  | handle hpoint =>
    simp only [hpoint, Point.left, List.length_cons]
    omega
  | handled hpoint => simp [hpoint, Point.left]
  | raised hpoint =>
    simp only [hpoint, Point.left]
    omega
  | polled hpoint => simp [hpoint, Point.left]
  | slept hpoint => rcases hpoint with hpoint | hpoint <;> simp [hpoint, Point.left]

/-- Until it has returned, the loop has a next step. -/
theorem live (w : WorkerLoop) :
    w.point = .returned ∨ ∃ l : LoopLabel, l.isOwn = true ∧ (w.step l).isSome = true := by
  cases hpoint : w.point with
  | testing => exact .inr ⟨.test, rfl, by simp [step, hpoint]⟩
  | polling => exact .inr ⟨.receive, rfl, by simp [step, hpoint]⟩
  | receiving => exact .inr ⟨.received (.ok []), rfl, by simp [step, hpoint, atMostOne]⟩
  | looping ms =>
    cases ms with
    | nil => exact .inr ⟨.polled, rfl, by simp [step, hpoint]⟩
    | cons m rest => exact .inr ⟨.handle m, rfl, by simp [step, hpoint]⟩
  | handling m rest => exact .inr ⟨.handled m (.ok .completed), rfl, by simp [step, hpoint]⟩
  | backingOff => exact .inr ⟨.slept, rfl, by simp [step, hpoint]⟩
  | recovering => exact .inr ⟨.slept, rfl, by simp [step, hpoint]⟩
  | returned => exact .inl rfl

theorem returns_of_stopping (hw : w.stopping = true) :
    Inevitable step LoopLabel.isOwn (fun v => v.point = .returned) w := by
  refine inevitable_of_measure (P := fun v => v.stopping = true) (fun v => v.point.left)
    (fun v _ => v.live) ?_ hw
  intro v l v' hv hl hstep
  exact ⟨(stopping_step hv hstep).1, left_step hv hl hstep⟩

end WorkerLoop

/-- **A graceful stop hands nothing back half done.** -/
theorem graceful_stop {ls : List LoopLabel} {w : WorkerLoop}
    (hrun : runs WorkerLoop.step WorkerLoop.start ls = some w) :
    (w.point = .returned → handledIn ls = receivedIn ls) ∧
      ∀ (before : List LoopLabel) (reason : String) (after : List LoopLabel),
        ls = before ++ .requestStop reason :: after → (∀ l ∈ before, l.isOwn = true) →
          begunIn after ≤ 1 ∧ w.stopReason = some reason ∧
            Inevitable WorkerLoop.step LoopLabel.isOwn (fun v => v.point = .returned) w := by
  constructor
  · intro hpoint
    have hmess := (WorkerLoop.inHand_run hrun).2
    have hnone : w.point.inHand = [] := by rw [hpoint]; rfl
    rw [hnone, List.append_nil] at hmess
    exact hmess.symm
  · intro before reason after hls hbefore
    rw [hls] at hrun
    obtain ⟨v, hv, hrest⟩ := runs_append.mp hrun
    obtain ⟨v', hstop, hafter⟩ := runs_cons.mp hrest
    have hrunning := WorkerLoop.running_run hbefore hv
    have hv' : v' = { v with stopping := true, stopReason := some reason } := by
      rw [← Option.some.inj hstop]
      exact if_pos hrunning
    have hstopping : v'.stopping = true := by rw [hv']
    obtain ⟨hw, hreason, hbegun⟩ := WorkerLoop.stopping_run hstopping hafter
    refine ⟨hbegun, ?_, WorkerLoop.returns_of_stopping hw⟩
    rw [hreason, hv']

/-- Two signals while a message is handled: it is finished, and nothing more is received. -/
theorem graceful_stop_in_flight :
    ∃ w, runs WorkerLoop.step WorkerLoop.start
        [.test, .receive, .received (.error (.botoCoreError "EndpointConnectionError" "no route")),
          .slept, .test, .receive, .received (.ok [⟨some "r-1", some "not json"⟩]),
          .handle ⟨some "r-1", some "not json"⟩, .requestStop "SIGTERM", .requestStop "SIGINT",
          .handled ⟨some "r-1", some "not json"⟩ (.ok .malformed), .polled, .test] = some w ∧
      w.point = .returned ∧ w.stopReason = some "SIGTERM" := by
  have hrun : runs WorkerLoop.step WorkerLoop.start
      [.test, .receive, .received (.error (.botoCoreError "EndpointConnectionError" "no route")),
        .slept, .test, .receive, .received (.ok [⟨some "r-1", some "not json"⟩]),
        .handle ⟨some "r-1", some "not json"⟩, .requestStop "SIGTERM", .requestStop "SIGINT",
        .handled ⟨some "r-1", some "not json"⟩ (.ok .malformed), .polled, .test] =
      some ⟨true, some "SIGTERM", .returned⟩ := by rfl
  have hstop := (graceful_stop hrun).2
    [.test, .receive, .received (.error (.botoCoreError "EndpointConnectionError" "no route")),
      .slept, .test, .receive, .received (.ok [⟨some "r-1", some "not json"⟩]),
      .handle ⟨some "r-1", some "not json"⟩] "SIGTERM"
    [.requestStop "SIGINT", .handled ⟨some "r-1", some "not json"⟩ (.ok .malformed), .polled, .test]
    rfl (by decide)
  exact ⟨_, hrun, rfl, hstop.2.1⟩

end PixelForge
