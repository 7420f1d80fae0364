import Mathlib.Data.Finset.Card
import Mathlib.Data.List.Chain
import PixelForge.Pipeline.Backing
import PixelForge.Worker.Tally

/-! # `jobs_processed_total`

One worker handles deliveries one after another while uploads run (`Shift`). `Balanced` compares the
increments of `jobs_processed_total` with the jobs that the worker moved to each of the two final
statuses. A handling keeps the balance exactly when it is `Prompt`: it counts what it moves, and moves
nothing that an earlier one has moved.
-/
set_option autoImplicit false

namespace PixelForge
open Effects

/-! ## Counters and jobs -/

/-- The jobs that an update moved to the status. -/
def jobsMoved (st : JobStatus) (log : Log) : Finset String :=
  (log.filterMap fun e => (moved e).bind fun m => if m.2 = st then some m.1 else none).toFinset

/-- What the events of the log count. -/
def tally (log : Log) : Ledger := ledger (log.map eventOf)

/-- Each job that was moved to a final status has been counted once. -/
structure Balanced (log : Log) : Prop where
  complete : (tally log).completions = (jobsMoved .complete log).card
  failed : (tally log).failures = (jobsMoved .failed log).card

/-- What was logged since. -/
def since (c' c : Pipe) : Log := c'.log.take (c'.log.length - c.log.length)

/-- A completion was heard of and the message deleted, and a failure was heard of, exactly when no
earlier handling had moved the job there. -/
structure Prompt (c' c : Pipe) : Prop where
  complete : ∀ j ∈ jobsMoved .complete (since c' c),
    ((tally (since c' c)).heardComplete && (tally (since c' c)).deleted) = true ↔
      j ∉ jobsMoved .complete c.log
  failed : ∀ j ∈ jobsMoved .failed (since c' c),
    (tally (since c' c)).heardFailed = true ↔ j ∉ jobsMoved .failed c.log

/-- The states between the handlings of one worker, latest first. Uploads start, run and crash at any
time, and every handling returns before the next one starts. -/
inductive Shift (ext : Externals) (config : Config) (staff : Proc → Bool) : List Pipe → Prop
  | opened {c : Pipe} {ls : List (Label Proc Choice String)}
      (hrun : (pipeline ext config staff).run Machine.always (Machine.initial Cloud.empty) ls = some c)
      (hls : ∀ l ∈ ls, ∀ i, stepper l = some i → i.isWorker = false) : Shift ext config staff [c]
  | handled {c c' : Pipe} {cs : List Pipe} {ls : List (Label Proc Choice String)} {n : Nat}
      {own : Config} {msg : RawMessage} {res : Except Exc Reply}
      (h : Shift ext config staff (c :: cs)) (hidle : c.thread (.worker n own msg) = .idle)
      (hrun : (pipeline ext config staff).run Machine.always c ls = some c')
      (hls : ∀ l ∈ ls, ∀ i, stepper l = some i → i.isWorker = true → i = .worker n own msg)
      (hret : c'.thread (.worker n own msg) = .running (.ret res)) :
      Shift ext config staff (c' :: c :: cs)

section Logs

variable {st : JobStatus} {log t : Log} {j : String}

theorem mem_jobsMoved : j ∈ jobsMoved st log ↔ ∃ e ∈ log, moved e = some (j, st) := by
  rw [jobsMoved, List.mem_toFinset, List.mem_filterMap]
  refine exists_congr fun e => and_congr_right fun _ => ?_
  cases hm : moved e with
  | none => simp
  | some m =>
    obtain ⟨j', st'⟩ := m
    by_cases hst : st' = st
    · simp [hst]
    · simp [hst]

theorem jobsMoved_append : jobsMoved st (t ++ log) = jobsMoved st t ∪ jobsMoved st log := by
  rw [jobsMoved, List.filterMap_append, List.toFinset_append]
  rfl

theorem ledger_cons (v : Ev) (h : History) : ledger (v :: h) = Ledger.note v (ledger h) := rfl

theorem ledger_append (h h' : History) :
    (ledger (h ++ h')).completions = (ledger h).completions + (ledger h').completions ∧
      (ledger (h ++ h')).failures = (ledger h).failures + (ledger h').failures := by
  induction h with
  | nil => exact ⟨(Nat.zero_add _).symm, (Nat.zero_add _).symm⟩
  | cons v h ih =>
    rw [List.cons_append, ledger_cons, ledger_cons]
    simp only [Ledger.note]
    omega

theorem ledger_heard (h : History) :
    (ledger h).heardComplete = h.any (Ev.hears .complete) ∧
      (ledger h).heardFailed = h.any (Ev.hears .failed) := by
  induction h with
  | nil => exact ⟨rfl, rfl⟩
  | cons v h ih =>
    rw [ledger_cons, List.any_cons, List.any_cons, ← ih.1, ← ih.2]
    exact ⟨rfl, rfl⟩

theorem tally_blank (h : ∀ e ∈ t, e.req.isUncounted = true) : tally t = {} := by
  induction t with
  | nil => rfl
  | cons e t ih =>
    have hcons : tally (e :: t) = Ledger.note (eventOf e) (tally t) := rfl
    rw [hcons, ih fun e' he' => h e' (List.mem_cons_of_mem _ he')]
    exact Ledger.note_uncounted (h e List.mem_cons_self) e.resp _

/-- The counters of a log are those of one process, where the others count nothing. -/
theorem tally_eq {i : Proc} (h : ∀ e ∈ t, e.who = i ∨ e.req.isUncounted = true) :
    tally t = ledger (history i t) := by
  induction t with
  | nil => rfl
  | cons e t ih =>
    have ih := ih fun e' he' => h e' (List.mem_cons_of_mem _ he')
    have hcons : tally (e :: t) = Ledger.note (eventOf e) (tally t) := rfl
    rw [hcons, ih]
    by_cases hi : e.who = i
    · rw [← hi, history_cons_self]
      rfl
    · rw [history_cons_ne hi]
      exact Ledger.note_uncounted ((h e List.mem_cons_self).resolve_left hi) e.resp _

end Logs

/-! ## One handling -/

/-- The log of one handling of a job, with what uploads did meanwhile. -/
structure OneJob (j : String) (t : Log) : Prop where
  own : ∀ st, jobsMoved st t ⊆ {j}
  complete : (tally t).heardComplete = true → j ∈ jobsMoved .complete t
  failed : (tally t).heardFailed = true → j ∈ jobsMoved .failed t
  reckoned : (tally t).Reckoned

/-- A counter that grows by one when `b` still is the number of keys seen, exactly when a new key was
seen or `b` is false. -/
theorem card_union_iff {α : Type} [DecidableEq α] {D S : Finset α} {j : α} {n : Nat} {b : Bool}
    (hD : D ⊆ {j}) (hb : b = true → j ∈ D) (hn : n = S.card) :
    b.toNat + n = (D ∪ S).card ↔ ∀ j' ∈ D, b = true ↔ j' ∉ S := by
  obtain rfl | rfl := Finset.subset_singleton_iff.mp hD
  · have hfalse : b = false := Bool.eq_false_iff.mpr fun h => absurd (hb h) (Finset.notMem_empty j)
    simp [hfalse, hn]
  · rw [Finset.singleton_union, Finset.card_insert_eq_ite, hn]
    simp only [Finset.mem_singleton, forall_eq]
    by_cases hj : j ∈ S
    · cases b <;> simp [hj]
    · cases b <;> simp [hj]
      omega

section Runs

variable {ext : Externals} {config : Config} {staff : Proc → Bool} {G : PipeGuard} {c c' : Pipe}
  {cs : List Pipe} {n : Nat} {own : Config} {msg : RawMessage} {job : JobMessage} {old t : Log}

/-- **A handling keeps the balance exactly when it is prompt.** -/
theorem balanced_append_iff {j : String} (ht : OneJob j t) (hold : Balanced old) :
    Balanced (t ++ old) ↔
      (∀ j' ∈ jobsMoved .complete t,
        ((tally t).heardComplete && (tally t).deleted) = true ↔ j' ∉ jobsMoved .complete old) ∧
      ∀ j' ∈ jobsMoved .failed t, (tally t).heardFailed = true ↔ j' ∉ jobsMoved .failed old := by
  have hsum := ledger_append (t.map eventOf) (old.map eventOf)
  rw [← List.map_append] at hsum
  have hcomplete : (tally (t ++ old)).completions = (jobsMoved .complete (t ++ old)).card ↔
      ∀ j' ∈ jobsMoved .complete t,
        ((tally t).heardComplete && (tally t).deleted) = true ↔ j' ∉ jobsMoved .complete old := by
    rw [tally, hsum.1, jobsMoved_append, ← tally, ← tally, ht.reckoned.complete]
    exact card_union_iff (ht.own .complete)
      (fun hb => ht.complete (Bool.and_eq_true_iff.mp hb).1) hold.complete
  have hfailed : (tally (t ++ old)).failures = (jobsMoved .failed (t ++ old)).card ↔
      ∀ j' ∈ jobsMoved .failed t, (tally t).heardFailed = true ↔ j' ∉ jobsMoved .failed old := by
    rw [tally, hsum.2, jobsMoved_append, ← tally, ← tally, ht.reckoned.failed]
    exact card_union_iff (ht.own .failed) ht.failed hold.failed
  exact ⟨fun h => ⟨hcomplete.mp h.complete, hfailed.mp h.failed⟩,
    fun h => ⟨hcomplete.mpr h.1, hfailed.mpr h.2⟩⟩

theorem uncounted_of_caller {e : LogEntry} {hist : History}
    (hmay : processMay ext config e.who hist e.req) (hwho : e.who.isWorker = false) :
    e.req.isUncounted = true := by
  obtain ⟨who, s, q, ch, r⟩ := e
  cases who with
  | worker n own msg => cases hwho
  | caller n u =>
    cases q with
    | updateItem j u => exact hmay.elim
    | deleteMessage receipt => exact hmay.elim
    | metric m => cases m <;> first | rfl | exact hmay.elim
    | _ => rfl

/-- A handling that has returned counted what it heard of. -/
theorem reckoned_of_returned
    (h : (pipeline ext config staff).Reach G (Machine.initial Cloud.empty) c) {res : Except Exc Reply}
    (hret : c.thread (.worker n own msg) = .running (.ret res)) :
    (ledger (history (.worker n own msg) c.log)).Reckoned := by
  have hstarted : c.thread (.worker n own msg) ≠ .idle := by simp [hret]
  obtain ⟨k, u, r, -, hjob⟩ := job_of_started h hstarted
  have hrun : Steps (recorder (fun _ _ => True) (Cloud.Answers ext))
      (replyWith .outcome ((Worker.build own).handleMessage ext msg)) [] (.ret res)
      (history (.worker n own msg) c.log) :=
    (h.steps Cloud.answers_of_perform (.worker n own msg)).2 _ hret
  have hfound : Steps (recorder (fun _ _ => True) (Found ext ((JobService.build config).newMessage r)))
      (replyWith .outcome ((Worker.build own).handleMessage ext msg)) [] (.ret res)
      (history (.worker n own msg) c.log) := by
    refine hrun.restrict fun v hv ha => ⟨ha, fun it hread => ?_⟩
    obtain rfl : v = readOk ((JobService.build config).newMessage r).jobId it := hread
    have hread : readOk ((JobService.build config).newMessage r).jobId it ∈
        journalOf (.worker n own msg) c.log := mem_journal rfl hv
    exact lookup_finds h hjob hread
  have hwp : Prog.wp (recorder (fun _ _ => True)
      (Found ext ((JobService.build config).newMessage r)))
      (replyWith .outcome ((Worker.build own).handleMessage ext msg)) (fun _ h => (ledger h).Reckoned)
      [] := by
    refine (Effects.wp_bind _ _ _ _).mpr (Effects.wp_mono (wp_recorder_of_monitor
      (h := []) (wp_counting_handleMessage hjob)) ?_)
    rintro (e | o) h hreckoned
    · exact hreckoned
    · exact hreckoned
  exact hfound.returned hwp

theorem moved_of_hears {e : LogEntry} {s' : Cloud} {st : JobStatus}
    (hp : e.before.perform ext e.req e.choice = some (e.resp, s'))
    (h : (eventOf e).hears st = true) : ∃ j, moved e = some (j, st) := by
  obtain ⟨j, u, hev, hu⟩ : ∃ j u, eventOf e = updateOk j u ∧ u.target = some st := by
    unfold Ev.hears at h
    split at h
    · rename_i j u v hev
      exact ⟨j, u, hev, eq_of_beq h⟩
    · cases h
  refine ⟨j, ?_⟩
  rw [(moved_of_updateOk hp hev).1, hu]
  rfl

theorem oneJob_of_run (hreach : (pipeline ext config staff).Reach Machine.always
      (Machine.initial Cloud.empty) c)
    (hidle : c.thread (.worker n own msg) = .idle) {ls : List (Label Proc Choice String)}
    (hrun : (pipeline ext config staff).run Machine.always c ls = some c')
    (hls : ∀ l ∈ ls, ∀ i, stepper l = some i → i.isWorker = true → i = .worker n own msg)
    {res : Except Exc Reply} (hret : c'.thread (.worker n own msg) = .running (.ret res)) :
    ∃ t j, c'.log = t ++ c.log ∧ OneJob j t := by
  have hreach' := hreach.of_run ls hrun
  obtain ⟨t, hlog, hwho⟩ := Machine.log_of_run hrun
  have hstarted : c'.thread (.worker n own msg) ≠ .idle := by simp [hret]
  obtain ⟨k, u, r, -, hjob⟩ := job_of_started hreach' hstarted
  have hentry : ∀ e ∈ t, ∃ hist s', processMay ext config e.who hist e.req ∧
      e.before.perform ext e.req e.choice = some (e.resp, s') := by
    intro e he
    obtain ⟨earlier, s', hmay, -, -, hp⟩ := entry_may hreach' (hlog ▸ List.mem_append_left _ he)
    exact ⟨_, s', hmay, hp⟩
  have hworker : ∀ e ∈ t, e.who.isWorker = true → e.who = .worker n own msg := by
    intro e he hw
    obtain ⟨l, hl, hstep⟩ := hwho e he
    exact hls l hl _ hstep hw
  have htally : tally t = ledger (history (.worker n own msg) c'.log) := by
    have hnone : history (.worker n own msg) c.log = [] :=
      hreach.history_of_idle hidle
    rw [hlog, history_append, hnone, List.append_nil]
    refine tally_eq fun e he => ?_
    cases hw : e.who.isWorker with
    | true => exact .inl (hworker e he hw)
    | false =>
      obtain ⟨hist, s', hmay, -⟩ := hentry e he
      exact .inr (uncounted_of_caller hmay hw)
  have hown : ∀ st, jobsMoved st t ⊆ {r.jobId} := by
    intro st j hj
    obtain ⟨e, he, hm⟩ := mem_jobsMoved.mp hj
    obtain ⟨up, it, hq, -⟩ := update_of_moved hm
    obtain ⟨hist, s', hmay, -⟩ := hentry e he
    rw [hq] at hmay
    obtain ⟨n', own', msg', job', hi, hjob', rfl, -⟩ := processMay_update hmay
    have heq := hworker e he (by rw [hi]; rfl)
    rw [hi] at heq
    cases heq
    rw [hjob] at hjob'
    rw [← Option.some.inj hjob']
    exact Finset.mem_singleton_self _
  have hheard : ∀ st, (t.map eventOf).any (Ev.hears st) = true → r.jobId ∈ jobsMoved st t := by
    intro st hany
    obtain ⟨v, hv, hhears⟩ := List.any_eq_true.mp hany
    obtain ⟨e, he, rfl⟩ := List.mem_map.mp hv
    obtain ⟨-, s', -, hp⟩ := hentry e he
    obtain ⟨j, hm⟩ := moved_of_hears hp hhears
    have hj : j ∈ jobsMoved st t := mem_jobsMoved.mpr ⟨e, he, hm⟩
    rw [← Finset.mem_singleton.mp (hown st hj)]
    exact hj
  refine ⟨t, r.jobId, hlog, hown, fun h => hheard _ ?_, fun h => hheard _ ?_, ?_⟩
  · rw [← (ledger_heard _).1]
    exact h
  · rw [← (ledger_heard _).2]
    exact h
  · rw [htally]
    exact reckoned_of_returned hreach' hret

theorem Shift.reach (h : Shift ext config staff (c :: cs)) :
    (pipeline ext config staff).Reach Machine.always (Machine.initial Cloud.empty) c := by
  generalize hcs : c :: cs = cs' at h
  induction h generalizing c cs with
  | opened hrun =>
    cases hcs
    exact Machine.Reach.refl.of_run _ hrun
  | handled _ _ hrun _ _ ih =>
    cases hcs
    exact (ih rfl).of_run _ hrun

theorem since_of_log (hlog : c'.log = t ++ c.log) : since c' c = t := by
  rw [since, hlog, List.length_append, Nat.add_sub_cancel, List.take_left]

theorem balanced_opened {ls : List (Label Proc Choice String)}
    (hrun : (pipeline ext config staff).run Machine.always (Machine.initial Cloud.empty) ls = some c)
    (hls : ∀ l ∈ ls, ∀ i, stepper l = some i → i.isWorker = false) : Balanced c.log := by
  have hreach := Machine.Reach.refl.of_run ls hrun
  obtain ⟨t, hlog, hwho⟩ := Machine.log_of_run hrun
  obtain rfl : c.log = t := hlog.trans (List.append_nil t)
  have hcaller : ∀ e ∈ c.log, ∃ hist, processMay ext config e.who hist e.req ∧
      e.who.isWorker = false := by
    intro e he
    obtain ⟨earlier, s', hmay, -⟩ := entry_may hreach he
    obtain ⟨l, hl, hstep⟩ := hwho e he
    exact ⟨_, hmay, hls l hl _ hstep⟩
  have htally : tally c.log = {} := by
    refine tally_blank fun e he => ?_
    obtain ⟨hist, hmay, hwho⟩ := hcaller e he
    exact uncounted_of_caller hmay hwho
  have hmoved : ∀ st, jobsMoved st c.log = ∅ := by
    intro st
    refine Finset.eq_empty_iff_forall_notMem.mpr fun j hj => ?_
    obtain ⟨e, he, hm⟩ := mem_jobsMoved.mp hj
    obtain ⟨u, it, hq, -⟩ := update_of_moved hm
    obtain ⟨hist, hmay, hwho⟩ := hcaller e he
    rw [hq] at hmay
    obtain ⟨n, own, msg, job, hi, -⟩ := processMay_update hmay
    rw [hi] at hwho
    cases hwho
  exact ⟨by rw [htally, hmoved]; rfl, by rw [htally, hmoved]; rfl⟩

/-- **`jobs_processed_total` is exact between all handlings exactly when every handling is prompt.** -/
theorem jobs_counted_iff (h : Shift ext config staff cs) :
    (∀ c ∈ cs, Balanced c.log) ↔ cs.IsChain Prompt := by
  induction h with
  | opened hrun hls =>
    exact ⟨fun _ => List.isChain_singleton _,
      fun _ c hc => List.mem_singleton.mp hc ▸ balanced_opened hrun hls⟩
  | @handled c c' cs _ _ _ _ _ h hidle hrun hls hret ih =>
    obtain ⟨t, j, hlog, ht⟩ := oneJob_of_run h.reach hidle hrun hls hret
    rw [List.forall_mem_cons, List.isChain_cons_cons, ih]
    refine and_congr_left fun hchain => ?_
    have hold : Balanced c.log := ih.mpr hchain c List.mem_cons_self
    rw [hlog, balanced_append_iff ht hold]
    constructor
    · rintro ⟨hcomplete, hfailed⟩
      exact ⟨by rwa [since_of_log hlog], by rwa [since_of_log hlog]⟩
    · rintro ⟨hcomplete, hfailed⟩
      rw [since_of_log hlog] at hcomplete hfailed
      exact ⟨hcomplete, hfailed⟩

end Runs

section Scene
open Surroundings

/-- The worker may not delete messages. -/
def denied : Choice := { fault := .failed (.clientError "AccessDenied" 403 "Access Denied") }

/-- The stores and threads after the `n`th worker has been started and has had `ls` answered. -/
def afterHandling (n : Nat) (c : Pipe) (ls : List (Label Proc Choice String)) : Pipe :=
  scene.played (started n c) ls

theorem shift_accepted {u : Upload}
    (h : (scene.run Machine.always (Machine.initial Cloud.empty) (Machine.script (caller u)
        [plain, { text := jobId }, plain, plain, plain, plain, plain])).isSome = true ∧
      (scene.run Machine.always (Surroundings.recorded u)
        ([plain, { text := messageId }, plain, plain].map (.act (caller u)))).isSome = true) :
    Shift small config colleague [accepted u] := by
  have hrun := (Machine.run_append (Machine.run_played h.1) _).trans (Machine.run_played h.2)
  refine .opened hrun fun l hl i hi => ?_
  have hcaller : stepper l = some (caller u) := by
    obtain hl | hl := List.mem_append.mp hl
    · obtain rfl | hl := List.mem_cons.mp hl
      · rfl
      · obtain ⟨ch, -, rfl⟩ := List.mem_map.mp hl
        rfl
    · obtain ⟨ch, -, rfl⟩ := List.mem_map.mp hl
      rfl
  obtain rfl := Option.some.inj (hcaller.symm.trans hi)
  rfl

/-- A handling of the delivery by the `n`th worker, without anything in between. -/
theorem shift_handled {n : Nat} {c : Pipe} {cs : List Pipe} {ls : List (Label Proc Choice String)}
    {attributes : List (String × String)} (h : Shift small config colleague (c :: cs))
    (hidle : c.thread (worker n) = .idle)
    (hq : c.state.queue messageId = some ⟨message.toJson small, attributes, .onQueue⟩)
    (hls : ∀ l ∈ ls, stepper l = some (worker n))
    (hrun : (scene.run Machine.always (started n c) ls).isSome = true ∧
      ((afterHandling n c ls).result (worker n)).isSome = true) :
    Shift small config colleague (afterHandling n c ls :: c :: cs) := by
  obtain ⟨res, hres⟩ := Option.isSome_iff_exists.mp hrun.2
  have hrun' : scene.run Machine.always c (.start (worker n) :: ls) = some (afterHandling n c ls) :=
    (Machine.run_step (step_started (colleague_worker n) hidle hq)).trans (Machine.run_played hrun.1)
  refine .handled h hidle hrun' (fun l hl i hi _ => ?_) (Snapshot.result_eq_some.mp hres)
  obtain rfl | hl := List.mem_cons.mp hl
  · exact (Option.some.inj hi).symm
  · exact Option.some.inj (hi.symm.trans (hls l hl))

set_option maxRecDepth 50000 in
theorem shift_good : Shift small config colleague [accepted goodUpload] :=
  shift_accepted ⟨rfl, rfl⟩

set_option maxRecDepth 50000 in
theorem shift_poison : Shift small config colleague [accepted poisonUpload] :=
  shift_accepted ⟨rfl, rfl⟩

/-- A worker completes the job, and its delete is refused. -/
def uncounted : Pipe :=
  afterHandling 0 (accepted goodUpload) (going 0 24 ++ [.act (worker 0) denied] ++ going 0 3)

/-- A worker fails the job, and its delete is refused. -/
def failedOnce : Pipe :=
  afterHandling 0 (accepted poisonUpload) (going 0 20 ++ [.act (worker 0) denied] ++ going 0 3)

/-- The redelivery fails the job again. -/
def failedTwice : Pipe := afterHandling 1 failedOnce (going 1 23)

theorem steppers_going {n k m : Nat} : ∀ l ∈ going n k ++ [.act (worker n) denied] ++ going n m,
    stepper l = some (worker n) := by
  intro l hl
  simp only [going, List.mem_append, List.mem_replicate, List.mem_singleton] at hl
  obtain (⟨-, rfl⟩ | rfl) | ⟨-, rfl⟩ := hl <;> rfl

set_option maxRecDepth 50000 in
theorem shift_failedOnce : Shift small config colleague [failedOnce, accepted poisonUpload] :=
  shift_handled shift_poison (accepted_idle (worker_ne_caller 0 _)) accepted_poison_queue
    steppers_going ⟨rfl, rfl⟩

set_option maxRecDepth 50000 in
theorem failedOnce_queue : failedOnce.state.queue messageId =
    some ⟨message.toJson small, [("job_id", jobId)], .onQueue⟩ := (rfl)

theorem failedOnce_idle : failedOnce.thread (worker 1) = .idle := by
  have hne : worker 1 ≠ worker 0 := worker_ne (by decide)
  rw [failedOnce, afterHandling, Machine.played_thread fun l hl => ?_,
    started_idle hne (accepted_idle (worker_ne_caller 1 _))]
  rw [steppers_going l hl]
  exact fun h => hne (Option.some.inj h).symm

set_option maxRecDepth 50000 in
/-- A completion that is never counted, and a failure that is counted twice. -/
theorem jobs_miscounted :
    (∃ cs, Shift small config colleague (uncounted :: cs) ∧
      jobsMoved .complete uncounted.log = {jobId} ∧ (tally uncounted.log).completions = 0) ∧
    ∃ cs, Shift small config colleague (failedTwice :: cs) ∧
      jobsMoved .failed failedTwice.log = {jobId} ∧ (tally failedTwice.log).failures = 2 := by
  constructor
  · have hrun : ((scene.run Machine.always (started 0 (accepted goodUpload))
        (going 0 24 ++ [.act (worker 0) denied] ++ going 0 3)).isSome = true ∧
          (uncounted.result (worker 0)).isSome = true) ∧
        jobsMoved .complete uncounted.log = {jobId} ∧ (tally uncounted.log).completions = 0 :=
      ⟨⟨rfl, rfl⟩, rfl, rfl⟩
    exact ⟨_, shift_handled shift_good (accepted_idle (worker_ne_caller 0 _)) accepted_good_queue
      steppers_going hrun.1, hrun.2⟩
  · have hrun : ((scene.run Machine.always (started 1 failedOnce) (going 1 23)).isSome = true ∧
          (failedTwice.result (worker 1)).isSome = true) ∧
        jobsMoved .failed failedTwice.log = {jobId} ∧ (tally failedTwice.log).failures = 2 :=
      ⟨⟨rfl, rfl⟩, rfl, rfl⟩
    refine ⟨_, shift_handled shift_failedOnce failedOnce_idle failedOnce_queue (fun l hl => ?_)
      hrun.1, hrun.2⟩
    rw [List.eq_of_mem_replicate hl]
    rfl

/-- A worker completes the job, undisturbed. -/
def countedOnce : Pipe := afterHandling 0 (accepted goodUpload) (going 0 29)

set_option maxRecDepth 50000 in
/-- One delivery that nothing disturbs. -/
theorem jobs_counted_completed : ∃ cs c, Shift small config colleague (c :: cs) ∧
    (tally c.log).completions = 1 ∧ ∀ c' ∈ c :: cs, Balanced c'.log := by
  have hrun : ((scene.run Machine.always (started 0 (accepted goodUpload)) (going 0 29)).isSome = true ∧
      (countedOnce.result (worker 0)).isSome = true) ∧ (tally countedOnce.log).completions = 1 :=
    ⟨⟨rfl, rfl⟩, rfl⟩
  have hprompt : Prompt countedOnce (accepted goodUpload) := ⟨by decide +kernel, by decide +kernel⟩
  have hshift : Shift small config colleague [countedOnce, accepted goodUpload] := by
    refine shift_handled shift_good (accepted_idle (worker_ne_caller 0 _)) accepted_good_queue
      (fun l hl => ?_) hrun.1
    rw [List.eq_of_mem_replicate hl]
    rfl
  refine ⟨_, _, hshift, hrun.2, (jobs_counted_iff hshift).mpr ?_⟩
  exact .cons_cons hprompt (List.isChain_singleton _)

end Scene

end PixelForge
