import PixelForge.Pipeline.Backing

/-! # Accepted jobs are not lost

A message is deleted only when its job is in a final status (`settled_terminal`). The job stays
there, unless a `mark_processing` is applied to a `FAILED` record: `notRevived` are the runs in
which that does not happen.
-/
set_option autoImplicit false

namespace PixelForge
open Effects

/-- The entry does not move a `FAILED` job to `PROCESSING`. -/
abbrev notRevived : PipeGuard := fun _ e =>
  (match moved e with
    | some (j, .processing) => e.before.status j != some .failed
    | _ => true) = true

theorem notRevived_ne {log : Log} {e : LogEntry} {j : String} (h : notRevived log e)
    (hm : moved e = some (j, .processing)) : e.before.status j ≠ some .failed := by
  simpa [notRevived, hm] using h

/-- The job is `COMPLETE` or `FAILED`. -/
def Cloud.Finished (s : Cloud) (j : String) : Prop :=
  s.status j = some .complete ∨ s.status j = some .failed

theorem Cloud.Finished.congr {s s' : Cloud} {j : String} (h : s.Finished j)
    (ht : s'.table = s.table) : s'.Finished j := by
  unfold Finished status at h ⊢
  rwa [ht]

section Runs

variable {ext : Externals} {config : Config} {staff : Proc → Bool} {c : Pipe}

theorem finished_step
    (h : (pipeline ext config staff).Reach notRevived (Machine.initial Cloud.empty) c)
    {e : LogEntry} {s' : Cloud} (hbefore : e.before = c.state)
    (hmay : processMay ext config e.who (history e.who c.log) e.req)
    (hp : e.before.perform ext e.req e.choice = some (e.resp, s')) (hG : notRevived c.log e)
    {n : Nat} {u : Upload} {r : JobRecord} (hs : SentBy ext config c.log n u r)
    (hf : c.state.Finished r.jobId) : s'.Finished r.jobId := by
  have hf' : e.before.Finished r.jobId := hbefore ▸ hf
  cases itemStep hp r.jobId with
  | same hsame =>
    unfold Cloud.Finished Cloud.status at hf' ⊢
    rwa [hsame]
  | @update up it hq ha hst hm =>
    rw [hq] at hmay
    obtain ⟨_, _, _, _, -, -, -, -, hdue⟩ := processMay_update hmay
    have hstat : s'.status r.jobId = up.target := by
      rw [Cloud.status, hst, Option.bind_some, hdue.known.status ha]
    cases hdue with
    | processing now =>
      -- applied to a finished job, it would have revived a failed one
      obtain ⟨i, hi, hne⟩ := processing_condition ha
      obtain hc | hfail := hf'
      · rw [Cloud.status, hi] at hc
        exact absurd hc hne
      · exact absurd hfail (notRevived_ne hG hm)
    | complete ms now => exact .inl hstat
    | failed reason now => exact .inr hstat
  | put hq hd hj hst =>
    rw [hq] at hmay
    obtain ⟨hwho, -⟩ := put_backed h hmay hd hj hs.drawn
    obtain ⟨_, _, r₀, r', hi, -, -, hstored, -, -, hwhy⟩ := processMay_put hmay hd
    obtain ⟨v, hv, attributes, hsend⟩ := hs.sent
    obtain ⟨-, hnone⟩ | ⟨hfail, -⟩ := hwhy
    · have hno := hnone v (hwho ▸ hv)
      rw [hsend] at hno
      cases hno
    · refine .inr ?_
      rw [Cloud.status, hst, Option.bind_some, hstored.status, hfail]

/-- What a new event adds to the reasons for deleting a message. -/
theorem settled_cons {job : JobMessage} {v : Ev} {t : List Ev} (h : Settled ext job (v :: t)) :
    Settled ext job t ∨ Settled ext job [v] := by
  cases h with
  | missing hv hd =>
    exact (List.mem_cons.mp hv).symm.imp (.missing · hd)
      fun he => .missing (List.mem_singleton.mpr he) hd
  | alreadyComplete hv hd hr =>
    exact (List.mem_cons.mp hv).symm.imp (.alreadyComplete · hd hr)
      fun he => .alreadyComplete (List.mem_singleton.mpr he) hd hr
  | lostRace hv he =>
    exact (List.mem_cons.mp hv).symm.imp (.lostRace · he)
      fun hev => .lostRace (List.mem_singleton.mpr hev) he
  | complete hv =>
    exact (List.mem_cons.mp hv).symm.imp .complete fun he => .complete (List.mem_singleton.mpr he)
  | failed hv =>
    exact (List.mem_cons.mp hv).symm.imp .failed fun he => .failed (List.mem_singleton.mpr he)

theorem settled_of_entry {job : JobMessage} {e : LogEntry} {log : Log} {i : Proc}
    (h : Settled ext job (journalOf i (e :: log))) :
    Settled ext job (journalOf i log) ∨ e.who = i ∧ Settled ext job [eventOf e] := by
  by_cases hi : e.who = i
  · subst hi
    rw [journalOf, journal_cons_self, note] at h
    split at h
    · exact (settled_cons h).imp_right fun h => ⟨rfl, h⟩
    · exact .inl h
  · rw [journalOf, history_cons_ne hi] at h
    exact .inl h

/-- The answer to a false condition is not a failure of the call. -/
theorem not_conditionFailed {e : Exc} (h : e.isServiceFault = true) :
    e.isConditionFailed = false := by
  cases e with
  | clientError code status text => simpa [Exc.isServiceFault, Exc.isConditionFailed] using h
  | _ => rfl

/-- An entry that settles the message of a backed job leaves the job finished. -/
theorem finished_of_settled {e : LogEntry} {s' : Cloud} {hist : History} {job : JobMessage}
    (hmay : processMay ext config e.who hist e.req)
    (hp : e.before.perform ext e.req e.choice = some (e.resp, s'))
    (h : Settled ext job [eventOf e]) {it : Item} (htable : e.before.table job.jobId = some it)
    (htyped : it.Typed ext.intOfStr) : s'.Finished job.jobId := by
  cases h with
  | missing hv hd =>
    obtain ⟨-, hshow⟩ := lookup_shows hp (List.mem_singleton.mp hv)
    obtain ⟨record, hrecord, -⟩ := htyped.decodeItem
    rw [← hshow, htable, hrecord] at hd
    cases hd
  | alreadyComplete hv hd hr =>
    obtain ⟨rfl, hshow⟩ := lookup_shows hp (List.mem_singleton.mp hv)
    obtain ⟨item, rfl, hdec⟩ := decodes_of_decodeItem hd
    refine .inl ?_
    rw [Cloud.status, hshow, Option.bind_some, hdec.itemStatus, hr]
  | @lostRace now exc hv he =>
    obtain ⟨who, s, q, ch, ans⟩ := e
    cases List.mem_singleton.mp hv
    obtain ⟨rfl, -, e', he', hwhy⟩ | ⟨it', -, -, -, hfault⟩ := Cloud.perform_updateItem hp
    · obtain rfl := Except.error.inj he'
      obtain hc | herr := hwhy
      · exact absurd he (Bool.eq_false_iff.mp (not_conditionFailed hc))
      · obtain hnone | hst := processing_lost herr he
        · obtain ⟨v, hid⟩ := htyped.strs "job_id" (by decide)
          rw [show s'.table job.jobId = some it from htable, Option.bind_some, hid] at hnone
          cases hnone
        · exact .inl hst
    · exact absurd he (Bool.eq_false_iff.mp (not_conditionFailed (hfault _ rfl)))
  | complete hv =>
    have hm := (moved_of_updateOk hp (List.mem_singleton.mp hv).symm).1
    exact .inl (status_of_moved hmay hp hm)
  | failed hv =>
    have hm := (moved_of_updateOk hp (List.mem_singleton.mp hv).symm).1
    exact .inr (status_of_moved hmay hp hm)

/-- **Once a worker has a reason to delete its message, the job is finished.** -/
theorem settled_terminal
    (h : (pipeline ext config staff).Reach notRevived (Machine.initial Cloud.empty) c)
    {n : Nat} {own : Config} {msg : RawMessage} {job : JobMessage} (hjob : msg.job? ext = some job)
    (hs : Settled ext job (journalOf (.worker n own msg) c.log)) :
    c.state.Finished job.jobId := by
  revert hs
  refine pipeline_invariant (P := fun s log =>
    Settled ext job (journalOf (.worker n own msg) log) → s.Finished job.jobId) ?_ ?_ ?_ h
  · intro hs
    cases hs <;> contradiction
  · exact fun s log mid m hP _ _ hs => (hP hs).congr rfl
  · intro c e s' hr hP hbefore hrun hmay hp hG hs
    obtain hold | ⟨hwho, hnew⟩ := settled_of_entry hs
    · obtain ⟨v, hv⟩ : ∃ v, v ∈ journalOf (.worker n own msg) c.log := by
        cases hold <;> exact ⟨_, by assumption⟩
      obtain ⟨k, u, r, hsent, hmsg⟩ := job_of_started hr (started_of_journal hr hv)
      obtain rfl := Option.some.inj (hmsg.symm.trans hjob)
      exact finished_step hr hbefore hmay hp hG hsent (hP hold)
    · obtain ⟨k, u, r, hsent, hmsg⟩ := job_of_started hr (hwho ▸ hrun)
      obtain rfl := Option.some.inj (hmsg.symm.trans hjob)
      obtain ⟨⟨it, htable, htyped, -⟩, -⟩ := hsent.backed hr
      exact finished_of_settled hmay hp hnew (hbefore ▸ htable) htyped

theorem place_step {e : LogEntry} {s' : Cloud} {mid : String} {m : QueuedMessage}
    (hp : e.before.perform ext e.req e.choice = some (e.resp, s')) (hm : s'.queue mid = some m)
    (hdel : m.place = .deleted) :
    e.before.queue mid = some m ∨
      e.req = .deleteMessage mid ∧ ∃ m₀, e.before.queue mid = some m₀ ∧ m₀.body = m.body := by
  obtain ⟨who, s, q, ch, r⟩ := e
  obtain rfl | he := Cloud.perform_effect hp
  · exact .inl hm
  · cases he with
    | object => exact .inl hm
    | put => exact .inl hm
    | update => exact .inl hm
    | draw => exact .inl hm
    | @send body attributes mid' hne hnone =>
      rw [Cloud.setMessage_queue] at hm
      split at hm
      · obtain rfl := Option.some.inj hm
        cases hdel
      · exact .inl hm
    | @delete mid' m' hm' =>
      rw [Cloud.setMessage_queue] at hm
      split at hm
      · rename_i hmid
        obtain rfl := Option.some.inj hm
        exact .inr ⟨by rw [hmid], m', hmid ▸ hm', rfl⟩
      · exact .inl hm

/-- **A deleted message is that of a finished job.** -/
theorem deleted_finished
    (h : (pipeline ext config staff).Reach notRevived (Machine.initial Cloud.empty) c)
    {mid : String} {m : QueuedMessage} {job : JobMessage} (hm : c.state.queue mid = some m)
    (hdel : m.place = .deleted) (hjob : JobMessage.ofJson? ext m.body = some job) :
    c.state.Finished job.jobId := by
  revert mid m
  refine pipeline_invariant (P := fun s _ => ∀ {mid m}, s.queue mid = some m →
    m.place = .deleted → JobMessage.ofJson? ext m.body = some job → s.Finished job.jobId) ?_ ?_ ?_ h
  · intro mid m hm
    cases hm
  · intro s log mid m hP hm _ mid' m' hm' hdel hjob
    rw [Cloud.setMessage_queue] at hm'
    split at hm'
    · obtain rfl := Option.some.inj hm'
      cases hdel
    · exact (hP hm' hdel hjob).congr rfl
  · intro c e s' hr hP hbefore hrun hmay hp hG mid m hm hdel hjob
    obtain hold | ⟨hq, m₀, hm₀, hbody⟩ := place_step hp hm hdel
    · rw [hbefore] at hold
      obtain ⟨n, u, r, hsent, hjson⟩ := message_sentBy hr hold
      rw [hjson, JobMessage.ofJson?_toJson ext rfl] at hjob
      obtain rfl := Option.some.inj hjob
      exact finished_step hr hbefore hmay hp hG hsent
        (hP hold hdel (by rw [hjson, JobMessage.ofJson?_toJson ext rfl]))
    · obtain ⟨who, s, q, ch, ans⟩ := e
      obtain rfl : q = .deleteMessage mid := hq
      cases who with
      | caller n u => exact hmay.elim
      | worker n own msg =>
        obtain ⟨hreceipt, hsettled⟩ := hmay
        obtain ⟨mid', m', hmid', hm', hbody'⟩ := message_of_started hr hrun
        obtain rfl : mid = mid' := by rw [hreceipt, RawMessage.receipt, hmid', Option.getD_some]
        obtain rfl : s = c.state := hbefore
        obtain rfl : m₀ = m' := Option.some.inj (hm₀.symm.trans hm')
        have hmsg : msg.job? ext = some job := by
          rw [RawMessage.job?, hbody', Option.getD_some, hbody, hjob]
        refine (settled_terminal hr hmsg (hsettled job hmsg)).congr ?_
        exact table_of_silent (e := ⟨.worker n own msg, c.state, _, ch, ans⟩) hp
          (fun _ _ h => by cases h) fun _ h => by cases h

theorem queue_of_sentOk {G : PipeGuard} {s₀ : Cloud}
    (h : (pipeline ext config staff).Reach G (Machine.initial s₀) c)
    {i : Proc} {body : String} {attributes : List (String × String)} {mid : String}
    (hv : sentOk body attributes mid ∈ journalOf i c.log) :
    ∃ m, c.state.queue mid = some m ∧ m.body = body := by
  revert hv
  refine pipeline_invariant (P := fun s log => sentOk body attributes mid ∈ journalOf i log →
    ∃ m, s.queue mid = some m ∧ m.body = body) ?_ ?_ ?_ h
  · intro hv
    cases hv
  · intro s log mid' m hP hm _ hv
    obtain ⟨m', hm', hbody⟩ := hP hv
    rw [Cloud.setMessage_queue]
    split
    · rename_i heq
      subst heq
      obtain rfl : m = m' := Option.some.inj (hm.symm.trans hm')
      exact ⟨_, rfl, hbody⟩
    · exact ⟨m', hm', hbody⟩
  · intro c e s' _ hP hbefore _ _ hp _ hv
    obtain hold | ⟨-, hev⟩ := journal_cases hv
    · obtain ⟨m, hm, hbody⟩ := hP hold
      obtain ⟨m', hm', hbody'⟩ := queue_keeps hp (hbefore ▸ hm)
      exact ⟨m', hm', hbody'.trans hbody⟩
    · obtain ⟨who, s, q, ch, ans⟩ := e
      cases hev
      have hserve := Cloud.perform_ok hp
      simp only [Cloud.serve] at hserve
      split at hserve
      · cases hserve
      · obtain ⟨hid, rfl⟩ := Prod.mk.inj (Option.some.inj hserve)
        obtain rfl := Except.ok.inj hid
        exact ⟨⟨body, attributes, .onQueue⟩, by rw [Cloud.setMessage_queue, if_pos rfl], rfl⟩

/-- `create_job` returned the record. -/
def Accepted (c : Pipe) (r : JobRecord) : Prop :=
  ∃ n u, c.thread (.caller n u) = .running (.ret (.ok (.record r)))

/-- A worker that has not crashed or returned handles the job's message. -/
def Handled (ext : Externals) (c : Pipe) (j : String) : Prop :=
  ∃ i q k, c.thread i = .running (.call q k) ∧ i.handles ext j = true

/-- The message of the job is on the queue or the dead-letter queue. -/
def Waiting (ext : Externals) (s : Cloud) (j : String) : Prop :=
  ∃ mid m job, s.queue mid = some m ∧ (m.place = .onQueue ∨ m.place = .onDeadLetter) ∧
    JobMessage.ofJson? ext m.body = some job ∧ job.jobId = j

/-- **No accepted job is lost**, in every run in which no `mark_processing` is applied to a
`FAILED` record. -/
theorem no_job_lost
    (h : (pipeline ext config staff).Reach notRevived (Machine.initial Cloud.empty) c)
    {r : JobRecord} (hr : Accepted c r) :
    c.state.Finished r.jobId ∨ Waiting ext c.state r.jobId ∨ Handled ext c r.jobId := by
  obtain ⟨n, u, hret⟩ := hr
  obtain ⟨-, -, -, attributes, mid, hsent⟩ := h.post (pipelineDiscipline ext config staff) hret
  obtain ⟨m, hm, hbody⟩ := queue_of_sentOk h hsent
  have hjob : JobMessage.ofJson? ext m.body = some ((JobService.build config).newMessage r) := by
    rw [hbody, JobMessage.ofJson?_toJson ext rfl]
  cases hplace : m.place with
  | onQueue => exact .inr (.inl ⟨mid, m, _, hm, .inl hplace, hjob, rfl⟩)
  | onDeadLetter => exact .inr (.inl ⟨mid, m, _, hm, .inr hplace, hjob, rfl⟩)
  | deleted => exact .inl (deleted_finished h hm hplace hjob)

end Runs

section Scene
open Surroundings

/-- A worker fails a poison upload; before it deletes the message, a second delivery moves the job
back to `PROCESSING`, and that worker crashes. -/
def revival : List (Label Proc Choice String) :=
  going 0 20 ++ going 1 4 ++ [.crash (worker 1)] ++ going 0 3

def revived : Pipe := scene.played (pair poisonUpload) revival

set_option maxRecDepth 50000 in
theorem revived_queue : revived.state.queue =
    Function.update (Function.update Cloud.empty.queue messageId
      (some ⟨message.toJson small, [("job_id", jobId)], .onQueue⟩)) messageId
      (some ⟨message.toJson small, [("job_id", jobId)], .deleted⟩) := (rfl)

theorem revived_over (i : Proc) {q : Request}
    {k : q.Resp → Prog Request Request.Resp (Except Exc Reply)} :
    revived.thread i ≠ .running (.call q k) := by
  have hover : ∀ i ∈ [caller poisonUpload, worker 0, worker 1], revived.waits i = false := by
    decide +kernel
  intro hi
  by_cases hmem : i ∈ [caller poisonUpload, worker 0, worker 1]
  · have h := hover i hmem
    rw [Snapshot.waits_of_running hi] at h
    cases h
  · simp only [List.mem_cons, List.not_mem_nil, or_false, not_or] at hmem
    have hsteppers : ∀ l ∈ revival, stepper l ∈ [some (worker 0), some (worker 1)] := by
      decide +kernel
    have hwho : ∀ l ∈ revival, stepper l ≠ some i := by
      intro l hl hw
      have hmem' := hsteppers l hl
      rw [hw] at hmem'
      simp only [List.mem_cons, Option.some.injEq, List.not_mem_nil, or_false] at hmem'
      exact hmem'.elim hmem.2.1 hmem.2.2
    have hidle := pair_idle hmem.1 hmem.2.1 hmem.2.2
    rw [← Machine.played_thread (M := scene) hwho] at hidle
    rw [revived, hidle] at hi
    cases hi

set_option maxRecDepth 50000 in
theorem job_lost : ∃ c r, scene.Reach Machine.always (Machine.initial Cloud.empty) c ∧
    Accepted c r ∧ ¬ c.state.Finished r.jobId ∧ ¬ Waiting small c.state r.jobId ∧
    ¬ Handled small c r.jobId := by
  have hrun : ((recordOf revived (caller poisonUpload)).any (·.jobId == jobId)) = true ∧
      revived.state.status jobId = some .processing := ⟨rfl, rfl⟩
  obtain ⟨hrecord, hstatus⟩ := hrun
  obtain ⟨r, hr, hid⟩ := (Option.any_eq_true _ _).mp hrecord
  refine ⟨revived, r, (reach_pair accepted_poison_queue).played _,
    ⟨0, poisonUpload, thread_of_recordOf hr⟩, ?_, ?_, ?_⟩
  · rw [eq_of_beq hid]
    rintro (h | h) <;> rw [hstatus] at h <;> cases h
  · rintro ⟨mid, m, job, hm, hplace, -⟩
    rw [revived_queue] at hm
    by_cases hmid : mid = messageId
    · rw [hmid, Function.update_self] at hm
      rw [← Option.some.inj hm] at hplace
      rcases hplace with h | h <;> cases h
    · rw [Function.update_of_ne hmid, Function.update_of_ne hmid] at hm
      cases hm
  · rintro ⟨i, q, k, hi, -⟩
    exact revived_over i hi

/-- The first worker crashes in the middle of the job. -/
def interrupted : Pipe := scene.played (pair goodUpload) (going 0 10 ++ [.crash (worker 0)])

set_option maxRecDepth 50000 in
/-- An accepted job whose first worker has crashed waits for a second one. -/
theorem no_job_lost_crashed : ∃ c r, Accepted c r ∧ c.state.status r.jobId = some .processing ∧
    (c.state.Finished r.jobId ∨ Waiting small c.state r.jobId ∨ Handled small c r.jobId) := by
  have hrun : Machine.lawful notRevived interrupted.log = true ∧
      ((recordOf interrupted (caller goodUpload)).any (·.jobId == jobId)) = true ∧
      interrupted.state.status jobId = some .processing := ⟨rfl, rfl, rfl⟩
  obtain ⟨hlaw, hrecord, hstatus⟩ := hrun
  obtain ⟨r, hr, hid⟩ := (Option.any_eq_true _ _).mp hrecord
  have hacc : Accepted interrupted r := ⟨0, goodUpload, thread_of_recordOf hr⟩
  refine ⟨_, r, hacc, ?_, no_job_lost (((reach_pair accepted_good_queue).played _).lawful hlaw) hacc⟩
  rw [eq_of_beq hid, hstatus]

end Scene

end PixelForge
