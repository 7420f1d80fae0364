import PixelForge.Pipeline.Entries

/-! # Overlapping deliveries of one job

A run is *overtaken* when another run's `mark_complete` was applied since its own lookup. The
record of a job that is `COMPLETE` can only be written by a run that is overtaken, or by the one
that completed it (`overtaken_or_own`): everything here follows from that.
-/
set_option autoImplicit false

namespace PixelForge
open Effects

/-! ## Overtaken runs -/

/-- Whether the entry is an answered `GetItem`. -/
def LogEntry.looksUp (e : LogEntry) : Bool :=
  match e.req with
  | .getItem _ => returned ⟨e.req, e.resp⟩
  | _ => false

/-- Since the last answered lookup of `i`, another process moved the job `j` to `COMPLETE`. -/
def overtaken (i : Proc) (j : String) : Log → Bool
  | [] => false
  | e :: log =>
    if e.who = i ∧ LogEntry.looksUp e = true then false
    else (decide (e.who ≠ i) && moved e == some (j, .complete)) || overtaken i j log

/-- The entry does not move a job to one of the statuses `writes` for a run that is overtaken. -/
abbrev notOvertaken (writes : JobStatus → Bool) : PipeGuard := fun log e =>
  (match moved e with
    | some (j, st) => !(writes st && overtaken e.who j log)
    | none => true) = true

/-- `i` itself moved the job to `COMPLETE`. -/
def CompletedBy (i : Proc) (j : String) (log : Log) : Prop :=
  ∃ e ∈ log, e.who = i ∧ moved e = some (j, .complete)

theorem notOvertaken_iff {writes : JobStatus → Bool} {log : Log} {e : LogEntry} {j : String}
    {st : JobStatus} (h : notOvertaken writes log e) (hm : moved e = some (j, st))
    (hw : writes st = true) : overtaken e.who j log = false := by
  simpa [notOvertaken, hm, hw] using h

section Runs

variable {ext : Externals} {config : Config} {staff : Proc → Bool} {G : PipeGuard} {s₀ : Cloud}
  {c : Pipe}

theorem looksUp_of_readOk {e : LogEntry} {j : String} {it : Option Item}
    (h : readOk j it = ⟨e.req, e.resp⟩) : LogEntry.looksUp e = true := by
  obtain ⟨who, s, q, ch, r⟩ := e
  cases h
  rfl

theorem lookup_first {own : Config} {msg : RawMessage} {e : LogEntry} {t : List Ev}
    (h : WorkerMay (.build own) ext msg t e.req) (hl : LogEntry.looksUp e = true) : t = [] := by
  obtain ⟨who, s, q, ch, r⟩ := e
  unfold LogEntry.looksUp at hl
  dsimp only at h hl
  split at hl
  · exact h.1
  · cases hl

theorem lookup_shows {e : LogEntry} {s' : Cloud} {j : String} {it : Option Item}
    (h : e.before.perform ext e.req e.choice = some (e.resp, s'))
    (hv : readOk j it = ⟨e.req, e.resp⟩) : s' = e.before ∧ e.before.table j = it := by
  obtain ⟨who, s, q, ch, r⟩ := e
  cases hv
  obtain ⟨hr, hs⟩ := Prod.mk.inj (Option.some.inj (Cloud.perform_ok h))
  exact ⟨hs.symm, Except.ok.inj hr⟩

/-- What a new entry does to the status of a job: nothing, what its update sets, or a status other
than `COMPLETE`. -/
theorem status_step {e : LogEntry} {s' : Cloud} {hist : History}
    (hmay : processMay ext config e.who hist e.req)
    (h : e.before.perform ext e.req e.choice = some (e.resp, s')) (j : String) :
    s'.status j = e.before.status j ∨
      (∃ st, moved e = some (j, st) ∧ s'.status j = some st) ∨
      ∃ st, s'.status j = some st ∧ st ≠ .complete := by
  cases itemStep h j with
  | same hs => exact .inl (by rw [Cloud.status, hs, Cloud.status])
  | @update u it hq ha hs hm =>
    rw [hq] at hmay
    obtain ⟨_, own, _, job, -, -, -, -, hdue⟩ := processMay_update hmay
    obtain ⟨st, ht, -⟩ := hdue.known.lookup_status
    refine .inr (.inl ⟨st, by rw [hm, ht]; rfl, ?_⟩)
    rw [Cloud.status, hs, Option.bind_some, hdue.known.status ha, ht]
  | @put d it hq hd hj hs =>
    rw [hq] at hmay
    obtain ⟨_, _, r, r', -, -, -, hst, -, -, hwhy⟩ := processMay_put hmay hd
    refine .inr (.inr ⟨r'.status, ?_, ?_⟩)
    · rw [Cloud.status, hs, Option.bind_some, hst.status]
    · obtain ⟨h, -⟩ | ⟨h, -⟩ := hwhy <;> rw [h] <;> decide

/-- **While a run that found the job unfinished is not overtaken, the job is unfinished, or the
run completed it itself.** -/
theorem overtaken_or_own (h : (pipeline ext config staff).Reach G (Machine.initial s₀) c)
    {n : Nat} {own : Config} {msg : RawMessage} {job : JobMessage}
    (hl : Looked ext job (journal (history (.worker n own msg) c.log)))
    (ho : overtaken (.worker n own msg) job.jobId c.log = false) :
    c.state.status job.jobId ≠ some .complete ∨
      CompletedBy (.worker n own msg) job.jobId c.log := by
  generalize hi : Proc.worker n own msg = i at hl ho ⊢
  revert hl ho
  refine pipeline_invariant (P := fun s log => Looked ext job (journal (history i log)) →
    overtaken i job.jobId log = false →
      s.status job.jobId ≠ some .complete ∨ CompletedBy i job.jobId log) ?_ ?_ ?_ h
  · rintro ⟨it, r, hread, -⟩
    cases hread
  · exact fun s log mid m hP _ _ hl ho => hP hl ho
  · intro c e s' hr hP hbefore _ hmay hp _ hl ho
    by_cases hself : e.who = i ∧ LogEntry.looksUp e = true
    · obtain ⟨hwho, hlook⟩ := hself
      obtain ⟨it, r, hread, hd, hrec⟩ := hl
      obtain hread | ⟨-, hread⟩ := journal_cases hread
      · rw [hwho, ← hi] at hmay
        rw [← hi, lookup_first hmay hlook] at hread
        cases hread
      · obtain ⟨rfl, htable⟩ := lookup_shows hp hread
        obtain ⟨item, rfl, hdec⟩ := decodes_of_decodeItem hd
        left
        rw [Cloud.status, htable, Option.bind_some, hdec.itemStatus]
        exact fun h => hrec (Option.some.inj h)
    · have hl' : Looked ext job (journal (history i c.log)) := by
        obtain ⟨it, r, hread, hd⟩ := hl
        obtain hread | ⟨hw, hread⟩ := journal_cases hread
        · exact ⟨it, r, hread, hd⟩
        · exact absurd ⟨hw, looksUp_of_readOk hread⟩ hself
      rw [overtaken, if_neg hself, Bool.or_eq_false_iff] at ho
      obtain hst | ⟨e', he', hown⟩ := hP hl' ho.2
      · rw [← hbefore] at hst
        obtain hs | ⟨st, hm, hs⟩ | ⟨st, hs, hne⟩ := status_step hmay hp job.jobId
        · exact .inl (hs ▸ hst)
        · by_cases hc : st = .complete
          · have hwho : e.who = i := by
              by_contra hne
              simp [hm, hc, hne] at ho
            exact .inr ⟨e, List.mem_cons_self, hwho, hc ▸ hm⟩
          · exact .inl (hs ▸ fun h => hc (Option.some.inj h))
        · exact .inl (hs ▸ fun h => hne (Option.some.inj h))
      · exact .inr ⟨e', List.mem_cons_of_mem _ he', hown⟩

/-- The entries by which a run moved its job are in its journal. -/
theorem terminalWrite_of_completedBy {i : Proc} {j : String} {log : Log}
    (h : CompletedBy i j log) :
    ∃ v ∈ journal (history i log), ∃ u, v.1 = .updateItem j u ∧ u.target = some .complete := by
  obtain ⟨e, he, rfl, hm⟩ := h
  obtain ⟨u, it, hq, ht, -⟩ := update_of_moved hm
  exact ⟨_, journal_of_entry he (by simp [Ev.counts, hq]), u, hq, ht⟩

/-- A `mark_failed` that is not overtaken does not find the job `COMPLETE`. -/
theorem failed_not_complete (h : (pipeline ext config staff).Reach G (Machine.initial s₀) c)
    {e : LogEntry} {j : String}
    (hmay : processMay ext config e.who (history e.who c.log) e.req)
    (hm : moved e = some (j, .failed)) (ho : overtaken e.who j c.log = false) :
    c.state.status j ≠ some .complete := by
  obtain ⟨u, it, hq, ht, -⟩ := update_of_moved hm
  rw [hq] at hmay
  obtain ⟨n, own, msg, job, hi, -, rfl, hl, hdue⟩ := processMay_update hmay
  rw [hi] at hl ho hdue
  obtain hst | hown := overtaken_or_own h hl ho
  · exact hst
  · obtain ⟨v, hv, u', hv', ht'⟩ := terminalWrite_of_completedBy hown
    cases hdue with
    | processing now => cases ht
    | complete ms now => cases ht
    | failed reason now hwhy hnew =>
      have heq := hnew v hv (by simp [hv', Request.isTerminalWrite, ht', JobStatus.isTerminal])
      rw [hv'] at heq
      obtain ⟨-, rfl⟩ := Request.updateItem.inj heq
      cases ht'

/-- A `mark_complete` that is not overtaken finds the job `COMPLETE` only where the same run
completed it. -/
theorem complete_not_complete (h : (pipeline ext config staff).Reach G (Machine.initial s₀) c)
    {e : LogEntry} {j : String}
    (hmay : processMay ext config e.who (history e.who c.log) e.req)
    (hm : moved e = some (j, .complete)) (ho : overtaken e.who j c.log = false) :
    c.state.status j ≠ some .complete ∨ CompletedBy e.who j c.log := by
  obtain ⟨u, it, hq, -, -⟩ := update_of_moved hm
  rw [hq] at hmay
  obtain ⟨n, own, msg, job, hi, -, rfl, hl, -⟩ := processMay_update hmay
  rw [hi] at hl ho ⊢
  exact overtaken_or_own h hl ho

/-- What a worker's entry does to the item of a `COMPLETE` job. -/
theorem complete_step {e : LogEntry} {s' : Cloud} {hist : History} {j : String}
    (hmay : processMay ext config e.who hist e.req)
    (hp : e.before.perform ext e.req e.choice = some (e.resp, s'))
    (hw : e.who.isWorker = true) (hst : e.before.status j = some .complete) :
    s'.table j = e.before.table j ∨ moved e = some (j, .failed) ∨
      moved e = some (j, .complete) ∧ s'.status j = some .complete := by
  cases itemStep hp j with
  | same hs => exact .inl hs
  | @update u it hq ha hs hm =>
    rw [hq] at hmay
    obtain ⟨_, _, _, _, -, -, -, -, hdue⟩ := processMay_update hmay
    have hstat : s'.status j = u.target := by
      rw [Cloud.status, hs, Option.bind_some, hdue.known.status ha]
    cases hdue with
    | processing now =>
      obtain ⟨i, hi, hne⟩ := processing_condition ha
      rw [Cloud.status, hi] at hst
      exact absurd hst hne
    | complete ms now => exact .inr (.inr ⟨hm, hstat⟩)
    | failed reason now => exact .inr (.inl hm)
  | put hq hd =>
    rw [hq] at hmay
    obtain ⟨_, _, _, _, hi, -⟩ := processMay_put hmay hd
    rw [hi] at hw
    cases hw

/-! ## `COMPLETE` is absorbing -/

theorem step_admitted (h : (pipeline ext config staff).Reach G (Machine.initial s₀) c) {c' : Pipe}
    {l : Label Proc Choice String} (hs : (pipeline ext config staff).step c l = some c') {i : Proc}
    (hl : stepper l = some i) : staff i = true := by
  obtain ⟨k, rfl, -, hk, -⟩ | ⟨k, ch, q, kont, r, s', rfl, hk, -⟩ | ⟨k, q, kont, rfl, hk, -⟩ |
    ⟨m, s', rfl, -⟩ := Machine.step_cases hs
  · exact Option.some.inj hl ▸ (Bool.and_eq_true_iff.mp hk).1
  · exact Option.some.inj hl ▸ admitted_of_started h (fun hid => by rw [hk] at hid; cases hid)
  · exact Option.some.inj hl ▸ admitted_of_started h (fun hid => by rw [hk] at hid; cases hid)
  · cases hl

/-- A step logs an entry, which is permitted and performed, or leaves the table and the log. -/
theorem step_entry (h : (pipeline ext config staff).Reach G (Machine.initial s₀) c) {c' : Pipe}
    {l : Label Proc Choice String} (hs : (pipeline ext config staff).step c l = some c') :
    c'.state.table = c.state.table ∧ c'.log = c.log ∨
    ∃ e : LogEntry, stepper l = some e.who ∧ c'.log = e :: c.log ∧ e.before = c.state ∧
      processMay ext config e.who (history e.who c.log) e.req ∧
      e.before.perform ext e.req e.choice = some (e.resp, c'.state) := by
  obtain ⟨i, -, -, -, rfl⟩ | ⟨i, ch, q, k, r, s', rfl, hi, hp, rfl⟩ | ⟨i, q, k, -, -, rfl⟩ |
    ⟨m, s', -, hm, rfl⟩ := Machine.step_cases hs
  · exact .inl ⟨rfl, rfl⟩
  · exact .inr ⟨⟨i, c.state, q, ch, r⟩, rfl, rfl, rfl,
      h.may (pipelineDiscipline ext config staff) hi, hp⟩
  · exact .inl ⟨rfl, rfl⟩
  · obtain ⟨m, -, -, rfl⟩ := Cloud.redrive_cases hm
    exact .inl ⟨rfl, rfl⟩

/-- **`COMPLETE` is absorbing for the workers**, in every run in which no `mark_failed` is applied
for a run that was overtaken. -/
theorem complete_absorbing
    (h : (pipeline ext config staff).Reach (notOvertaken (· == .failed)) (Machine.initial s₀) c)
    {c' : Pipe} {l : Label Proc Choice String}
    (hs : (pipeline ext config staff).step c l = some c')
    (hG : ∀ e, c'.log = e :: c.log → notOvertaken (· == .failed) c.log e)
    (hw : ∀ i, stepper l = some i → i.isWorker = true) {j : String}
    (hst : c.state.status j = some .complete) : c'.state.status j = some .complete := by
  obtain ⟨htable, -⟩ | ⟨e, hl, hlog, hbefore, hmay, hp⟩ := step_entry h hs
  · rw [Cloud.status, htable, ← Cloud.status, hst]
  · rw [← hbefore] at hst
    obtain hsame | hf | ⟨-, hc⟩ := complete_step hmay hp (hw _ hl) hst
    · rw [Cloud.status, hsame, ← Cloud.status, hst]
    · have ho := notOvertaken_iff (hG e hlog) hf rfl
      exact absurd (hbefore ▸ hst) (failed_not_complete h hmay hf ho)
    · exact hc

end Runs

section Scene
open Surroundings

/-- One worker runs out of memory while another completes the job. -/
def outOfMemory : Pipe :=
  scene.played (pair goodUpload) (going 0 4 ++ going 1 12 ++
    [.act (worker 1) { plain with seed := 1 }] ++ going 1 5 ++ going 0 20)

set_option maxRecDepth 50000 in
/-- The next request of that worker is its `mark_failed`. -/
theorem complete_not_absorbing : ∃ c c' l, scene.Reach Machine.always (Machine.initial Cloud.empty) c ∧
    scene.step c l = some c' ∧ stepper l = some (worker 1) ∧
    c.state.status jobId = some .complete ∧ c'.state.status jobId = some .failed := by
  have hrun : outOfMemory.state.status jobId = some .complete ∧
      ((scene.step outOfMemory (.act (worker 1) plain)).any fun c' =>
        c'.state.status jobId == some .failed) = true := ⟨rfl, rfl⟩
  obtain ⟨hcomplete, hstep⟩ := hrun
  obtain ⟨c', hc', hst⟩ := (Option.any_eq_true _ _).mp hstep
  exact ⟨outOfMemory, c', _, (reach_pair accepted_good_queue).played _, hc', rfl, hcomplete,
    eq_of_beq hst⟩

/-- Two workers have rendered the job, and one has completed it. -/
def renderedTwice : Pipe := scene.played (pair goodUpload) (going 0 4 ++ going 1 23 ++ going 0 20)

set_option maxRecDepth 50000 in
/-- The other one completes it again. -/
theorem complete_absorbing_renderedTwice : renderedTwice.state.status jobId = some .complete ∧
    ∃ c', scene.step renderedTwice (.act (worker 1) plain) = some c' ∧
      c'.state.status jobId = some .complete := by
  have hrun : renderedTwice.state.status jobId = some .complete ∧
      Machine.lawful (notOvertaken (· == .failed)) renderedTwice.log = true ∧
      ((scene.step renderedTwice (.act (worker 1) plain)).any
        (Machine.admits (notOvertaken (· == .failed)) renderedTwice)) = true := ⟨rfl, rfl, rfl⟩
  obtain ⟨hst, hlaw, hstep⟩ := hrun
  obtain ⟨c', hc', ha⟩ := (Option.any_eq_true _ _).mp hstep
  exact ⟨hst, c', hc', complete_absorbing (((reach_pair accepted_good_queue).played _).lawful hlaw)
    hc' (fun _ he => Machine.guard_of_admits ha he) (fun _ hi => Option.some.inj hi ▸ rfl) hst⟩

end Scene

/-! ## One result for one job -/

section Results

variable {ext : Externals} {config : Config} {staff : Proc → Bool} {G : PipeGuard} {s₀ : Cloud}
  {c : Pipe}

/-- Whether the process is a delivery of a message for the job. -/
def Proc.handles (ext : Externals) (j : String) : Proc → Bool
  | .caller _ _ => false
  | .worker _ _ msg =>
    match msg.job? ext with
    | some job => job.jobId == j
    | none => false

theorem handles_of_job {n : Nat} {own : Config} {msg : RawMessage} {job : JobMessage} {j : String}
    (hjob : msg.job? ext = some job) :
    (Proc.worker n own msg).handles ext j = (job.jobId == j) := by
  simp only [Proc.handles, hjob]

/-- Whether the entry counts a completion of the job. -/
def countsCompletion (ext : Externals) (j : String) (e : LogEntry) : Bool :=
  match e.req with
  | .metric (.jobsProcessed status) => status == "complete" && e.who.handles ext j
  | _ => false

/-- `i` returned `COMPLETED`. -/
def ReturnedCompleted (c : Pipe) (i : Proc) : Prop :=
  c.thread i = .running (.ret (.ok (.outcome .completed)))

theorem completed_by_one (hstaff : ∀ i, staff i = true → i.isWorker = true)
    (h : (pipeline ext config staff).Reach (notOvertaken JobStatus.isTerminal)
      (Machine.initial s₀) c) {e : LogEntry} (he : e ∈ c.log) {j : String}
    (hm : moved e = some (j, .complete)) :
    c.state.status j = some .complete ∧
      ∀ e' ∈ c.log, moved e' = some (j, .complete) → e'.who = e.who := by
  revert e
  refine pipeline_invariant (P := fun s log => ∀ {e : LogEntry}, e ∈ log →
    moved e = some (j, .complete) → s.status j = some .complete ∧
      ∀ e' ∈ log, moved e' = some (j, .complete) → e'.who = e.who) ?_ ?_ ?_ h
  · exact fun he => absurd he List.not_mem_nil
  · exact fun s log mid m hP _ _ e he hm => hP he hm
  · intro c e s' hr hP hbefore hrun hmay hp hG e₁ he₁ hm₁
    have hworker := hstaff _ (admitted_of_started hr hrun)
    by_cases hme : moved e = some (j, .complete)
    · have hstatus := status_of_moved hmay hp hme
      -- an earlier completion means that the job was `COMPLETE`, so this run completed it before
      have hsame : ∀ e' ∈ c.log, moved e' = some (j, .complete) → e'.who = e.who := by
        intro e' he' hm'
        obtain ⟨hst, hone⟩ := hP he' hm'
        obtain hne | ⟨e'', he'', hw, hm''⟩ :=
          complete_not_complete hr hmay hme (notOvertaken_iff hG hme rfl)
        · exact absurd hst hne
        · rw [← hw, hone e'' he'' hm'']
      have hall : ∀ e' ∈ e :: c.log, moved e' = some (j, .complete) → e'.who = e.who := by
        intro e' he' hm'
        obtain rfl | he' := List.mem_cons.mp he'
        · rfl
        · exact hsame e' he' hm'
      exact ⟨hstatus, fun e' he' hm' => (hall e' he' hm').trans (hall e₁ he₁ hm₁).symm⟩
    · obtain rfl | he₁ := List.mem_cons.mp he₁
      · exact absurd hm₁ hme
      obtain ⟨hst, hone⟩ := hP he₁ hm₁
      refine ⟨?_, fun e' he' hm' => ?_⟩
      · have hst' : e.before.status j = some .complete := hbefore ▸ hst
        obtain htable | hf | ⟨hc, -⟩ := complete_step hmay hp hworker hst'
        · rw [Cloud.status, htable, ← Cloud.status, hst']
        · exact absurd hst (failed_not_complete hr hmay hf (notOvertaken_iff hG hf rfl))
        · exact absurd hc hme
      · obtain rfl | he' := List.mem_cons.mp he'
        · exact absurd hm' hme
        · exact hone e' he' hm'

theorem completedBy_of_journal
    (h : (pipeline ext config staff).Reach G (Machine.initial s₀) c) {i : Proc} {j : String}
    {p : ProcessedOutputs} {ms : Int} {now : String}
    (hv : updateOk j (completeUpdate p ms now) ∈ journal (history i c.log)) :
    CompletedBy i j c.log := by
  obtain ⟨e, he, hw, hm⟩ := moved_of_journal h hv
  exact ⟨e, he, hw, by simpa using hm⟩

theorem completedBy_of_returned
    (h : (pipeline ext config staff).Reach G (Machine.initial s₀) c) {i : Proc} {j : String}
    (hi : i.handles ext j = true) (hret : ReturnedCompleted c i) : CompletedBy i j c.log := by
  have hpost := h.post (pipelineDiscipline ext config staff) hret
  cases i with
  | caller n u => cases hi
  | worker n own msg =>
    obtain ⟨job, p, ms, now, t₁, t₂, hjob, ht, hv⟩ := hpost
    have hj : job.jobId = j := by simpa [Proc.handles, hjob] using hi
    subst hj
    have hv' : updateOk job.jobId (completeUpdate p ms now) ∈
        journal (history (.worker n own msg) c.log) := by
      rw [ht]
      exact List.mem_append_right _ (List.mem_cons_of_mem _ hv)
    exact completedBy_of_journal h hv'

/-- An entry that counts a completion is by a run that completed the job, and its only count. -/
theorem countsCompletion_may {e : LogEntry} {log : Log} {j : String}
    (hmay : processMay ext config e.who (history e.who log) e.req)
    (hc : countsCompletion ext j e = true) :
    (∃ p ms now, updateOk j (completeUpdate p ms now) ∈ journal (history e.who log)) ∧
      ∀ status, countOk status ∉ journal (history e.who log) := by
  obtain ⟨who, s, q, ch, r⟩ := e
  unfold countsCompletion at hc
  dsimp only at hmay hc
  split at hc
  · rename_i status
    obtain ⟨hstatus, hwho⟩ := Bool.and_eq_true_iff.mp hc
    obtain rfl : status = "complete" := by simpa using hstatus
    cases who with
    | caller n u => cases hwho
    | worker n own msg =>
      obtain ⟨hdue, hnew⟩ := hmay
      refine ⟨?_, hnew⟩
      obtain ⟨job, p, ms, now, hjob, hv⟩ : ∃ job p ms now, msg.job? ext = some job ∧
          updateOk job.jobId (completeUpdate p ms now) ∈
            journal (history (.worker n own msg) log) := by
        generalize hs : "complete" = st at hdue
        cases hdue with
        | complete hj h hd => exact ⟨_, _, _, _, hj, h⟩
        | _ => exact absurd hs (by decide)
      have hj : job.jobId = j := by simpa [Proc.handles, hjob] using hwho
      exact ⟨p, ms, now, hj ▸ hv⟩
  · cases hc

theorem countsCompletion_event {e : LogEntry} {s' : Cloud} {j : String}
    (hp : e.before.perform ext e.req e.choice = some (e.resp, s'))
    (hc : countsCompletion ext j e = true) : (⟨e.req, e.resp⟩ : Ev) = countOk "complete" := by
  obtain ⟨who, s, q, ch, r⟩ := e
  unfold countsCompletion at hc
  dsimp only at hp hc
  split at hc
  · rename_i status
    obtain ⟨hstatus, -⟩ := Bool.and_eq_true_iff.mp hc
    obtain rfl : status = "complete" := by simpa using hstatus
    obtain ⟨v, rfl⟩ := Cloud.Answers.steady ⟨s, ch, s', hp⟩ rfl
    rfl
  · cases hc

theorem completion_counted_once (hstaff : ∀ i, staff i = true → i.isWorker = true)
    (h : (pipeline ext config staff).Reach (notOvertaken JobStatus.isTerminal)
      (Machine.initial s₀) c) (j : String) : c.log.countP (countsCompletion ext j) ≤ 1 := by
  refine pipeline_invariant (P := fun _ log => log.countP (countsCompletion ext j) ≤ 1)
    (Nat.zero_le _) (fun _ _ _ _ hP _ _ => hP) ?_ h
  intro c e s' hr hP hbefore hrun hmay hp hG
  rw [List.countP_cons]
  by_cases hc : countsCompletion ext j e = true
  · obtain ⟨⟨p, ms, now, hv⟩, hnew⟩ := countsCompletion_may hmay hc
    obtain ⟨e₁, he₁, hw₁, hm₁⟩ := completedBy_of_journal hr hv
    have hnone : c.log.countP (countsCompletion ext j) = 0 := by
      rw [List.countP_eq_zero]
      intro e' he' hc'
      obtain ⟨earlier, s'', hmay', hsub, -, hp'⟩ := entry_may hr he'
      obtain ⟨⟨p', ms', now', hv'⟩, -⟩ := countsCompletion_may hmay' hc'
      obtain ⟨e₂, he₂, hw₂, hm₂⟩ := completedBy_of_journal hr (hsub _ hv')
      have hwho : e'.who = e.who := by
        rw [← hw₁, ← hw₂]
        exact (completed_by_one hstaff hr he₁ hm₁).2 e₂ he₂ hm₂
      have hev := countsCompletion_event hp' hc'
      have hmem := journal_of_entry he' (by rw [hev]; rfl)
      rw [hev, hwho] at hmem
      exact hnew _ hmem
    rw [hnone]
    simp [hc]
  · simpa [hc] using hP

/-- **A duplicate delivery produces one result**, in every run in which no `mark_complete` or
`mark_failed` is applied for a run that was overtaken: at most one run returns `COMPLETED`, the
completion is counted at most once, and a run that did not complete the job itself leaves the
record of a `COMPLETE` job as it is. -/
theorem one_result (hstaff : ∀ i, staff i = true → i.isWorker = true)
    (h : (pipeline ext config staff).Reach (notOvertaken JobStatus.isTerminal)
      (Machine.initial s₀) c) (j : String) :
    (∀ i i', i.handles ext j = true → i'.handles ext j = true → ReturnedCompleted c i →
      ReturnedCompleted c i' → i = i') ∧
    c.log.countP (countsCompletion ext j) ≤ 1 ∧
    ∀ l c', (pipeline ext config staff).step c l = some c' →
      (∀ e, c'.log = e :: c.log → notOvertaken JobStatus.isTerminal c.log e) →
      c.state.status j = some .complete →
      (∀ i, stepper l = some i → ¬ CompletedBy i j c.log) →
      c'.state.table j = c.state.table j := by
  refine ⟨fun i i' hi hi' hret hret' => ?_, completion_counted_once hstaff h j,
    fun l c' hs hG hst hown => ?_⟩
  · obtain ⟨e, he, rfl, hm⟩ := completedBy_of_returned h hi hret
    obtain ⟨e', he', rfl, hm'⟩ := completedBy_of_returned h hi' hret'
    exact ((completed_by_one hstaff h he hm).2 e' he' hm').symm
  · obtain ⟨htable, -⟩ | ⟨e, hl, hlog, hbefore, hmay, hp⟩ := step_entry h hs
    · rw [htable]
    · have hworker : e.who.isWorker = true := hstaff _ (step_admitted h hs hl)
      rw [← hbefore]
      obtain hsame | hf | ⟨hc, -⟩ := complete_step hmay hp hworker (hbefore ▸ hst)
      · exact hsame
      · exact absurd hst (failed_not_complete h hmay hf (notOvertaken_iff (hG e hlog) hf rfl))
      · obtain hne | hby := complete_not_complete h hmay hc (notOvertaken_iff (hG e hlog) hc rfl)
        · exact absurd hst hne
        · exact absurd hby (hown _ hl)

end Results

section Scene
open Surroundings

theorem handles_worker (n : Nat) : (worker n).handles small jobId = true := by
  rw [worker, handles_of_job job_delivery]
  decide

/-- The whole of two overlapping deliveries. -/
def completedTwice : Pipe := scene.played (pair goodUpload) (going 0 4 ++ going 1 29 ++ going 0 25)

set_option maxRecDepth 50000 in
theorem two_results : ∃ c i i', scene.Reach Machine.always (Machine.initial Cloud.empty) c ∧
    i ≠ i' ∧ i.handles small jobId = true ∧ i'.handles small jobId = true ∧
    ReturnedCompleted c i ∧ ReturnedCompleted c i' := by
  have hboth : outcomeOf completedTwice (worker 0) = some .completed ∧
      outcomeOf completedTwice (worker 1) = some .completed := ⟨rfl, rfl⟩
  exact ⟨completedTwice, worker 0, worker 1, (reach_pair accepted_good_queue).played _,
    worker_ne Nat.zero_ne_one, handles_worker 0, handles_worker 1, thread_of_outcomeOf hboth.1,
    thread_of_outcomeOf hboth.2⟩

/-- One delivery from beginning to end, and a second one that finds the job `COMPLETE`. -/
def completedOnce : Pipe :=
  (pipeline small config Proc.isWorker).played
    (started 1 (started 0 (Machine.initial (accepted goodUpload).state))) (going 0 29 ++ going 1 4)

set_option maxRecDepth 50000 in
theorem one_result_completedOnce : ReturnedCompleted completedOnce (worker 0) ∧
    (∀ i i', i.handles small jobId = true → i'.handles small jobId = true →
      ReturnedCompleted completedOnce i → ReturnedCompleted completedOnce i' → i = i') ∧
    completedOnce.log.countP (countsCompletion small jobId) ≤ 1 := by
  have hrun : outcomeOf completedOnce (worker 0) = some .completed ∧
      Machine.lawful (notOvertaken JobStatus.isTerminal) completedOnce.log = true := ⟨rfl, rfl⟩
  obtain ⟨hout, hlaw⟩ := hrun
  have hzero : (pipeline small config Proc.isWorker).Reach Machine.always
      (Machine.initial (accepted goodUpload).state) (Machine.initial (accepted goodUpload).state) :=
    .refl
  have hone := reach_started (n := 0) rfl hzero rfl accepted_good_queue
  have htwo := reach_started (n := 1) rfl hone (started_idle (worker_ne Nat.one_ne_zero) rfl)
    accepted_good_queue
  obtain ⟨hone, hcount, -⟩ := one_result (fun _ hi => hi) ((htwo.played _).lawful hlaw) jobId
  exact ⟨thread_of_outcomeOf hout, hone, hcount⟩

end Scene

end PixelForge
