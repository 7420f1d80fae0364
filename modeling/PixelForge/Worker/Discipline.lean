import PixelForge.Worker.Protocol

/-! # The worker keeps to its protocol

The functions of `worker/consumer.py` from the bottom up, each with what it needs of the journal
and what it leaves. `Begun` and `Going` are the two stages between the lookup and the terminal
write.
-/
set_option autoImplicit false

namespace PixelForge
open Effects

/-- The job was looked up, and nothing final was tried or counted. -/
structure Begun (ext : Externals) (job : JobMessage) (t : List Ev) : Prop where
  looked : Looked ext job t
  fresh : ∀ v ∈ t, v.1.isTerminalWrite = false
  uncounted : ∀ status, countOk status ∉ t

/-- `Begun`, and the transition to `PROCESSING` was won. -/
structure Going (ext : Externals) (job : JobMessage) (t : List Ev) : Prop
    extends Begun ext job t where
  won : Won job t

section Facts

variable {w : Worker} {ext : Externals} {job : JobMessage} {t t' : List Ev}

theorem Looked.mono (h : Looked ext job t) (hsub : ∀ v ∈ t, v ∈ t') : Looked ext job t' := by
  obtain ⟨it, r, hit, hd, hr⟩ := h
  exact ⟨it, r, hsub _ hit, hd, hr⟩

theorem Won.mono (h : Won job t) (hsub : ∀ v ∈ t, v ∈ t') : Won job t' := by
  obtain ⟨now, hn⟩ := h
  exact ⟨now, hsub _ hn⟩

theorem Produced.mono {p : ProcessedOutputs} {data : Bytes} {pic : Picture}
    {thumbs : List RenderedThumbnail} (h : Produced w ext job t p data pic thumbs)
    (hsub : ∀ v ∈ t, v ∈ t') : Produced w ext job t' p data pic thumbs :=
  { h with fetched := hsub _ h.fetched, uploads := fun th hth => hsub _ (h.uploads th hth) }

theorem Begun.cons (h : Begun ext job t) (v : Ev) (hv : v.1.isTerminalWrite = false)
    (hc : ∀ status, countOk status ≠ v) : Begun ext job (v :: t) where
  looked := h.looked.mono fun _ => List.mem_cons_of_mem v
  fresh := List.forall_mem_cons.mpr ⟨hv, h.fresh⟩
  uncounted := fun status hs => by
    obtain hs | hs := List.mem_cons.mp hs
    · exact hc status hs
    · exact h.uncounted status hs

theorem Going.cons (h : Going ext job t) (v : Ev) (hv : v.1.isTerminalWrite = false)
    (hc : ∀ status, countOk status ≠ v) : Going ext job (v :: t) :=
  { h.toBegun.cons v hv hc with won := h.won.mono fun _ => List.mem_cons_of_mem v }

theorem Begun.attempts {j : String} {u : Update} (h : Begun ext job t)
    (ha : Attempts (.updateItem j u) t t') (hu : u.target.any JobStatus.isTerminal = false) :
    Begun ext job t' where
  looked := h.looked.mono fun _ => ha.mem
  fresh := fun v hv => by
    obtain hv | ⟨e, rfl⟩ := ha.cases hv
    · exact h.fresh v hv
    · exact hu
  uncounted := fun status hs => by
    obtain hs | ⟨e, he⟩ := ha.cases hs
    · exact h.uncounted status hs
    · cases he

/-- The terminal writes in a journal that had none are the attempts at the one in progress. -/
theorem Begun.terminal_eq {q : Request} (h : Begun ext job t) (ha : Attempts q t t') {v : Ev}
    (hv : v ∈ t') (ht : v.1.isTerminalWrite = true) : v.1 = q := by
  obtain hv | ⟨e, rfl⟩ := ha.cases hv
  · rw [h.fresh v hv] at ht
    cases ht
  · rfl

theorem Begun.uncounted_attempts {j : String} {u : Update} (h : Begun ext job t)
    (ha : Attempts (.updateItem j u) t t') (status : String) : countOk status ∉ t' := by
  intro hs
  obtain hs | ⟨e, he⟩ := ha.cases hs
  · exact h.uncounted status hs
  · cases he

theorem not_image_of_giveUp {e : Exc} (h : e.isGiveUp = true) : e.isImage = false := by
  cases e <;> first | rfl | cases h

theorem not_image_of_failed {q : Request} {e : Exc} (hq : q.isPillow = false)
    (h : e.isGiveUp = true ∨ Cloud.Answers ext q (.error e)) : e.isImage = false :=
  h.elim not_image_of_giveUp fun h => h.not_image hq

end Facts

/-! ## The functions -/

section Functions

variable {w : Worker} {ext : Externals} {msg : RawMessage} {job : JobMessage} {t : List Ev}

/-- The interface of one handling. -/
abbrev handling (w : Worker) (ext : Externals) (msg : RawMessage) :
    Interface Request Request.Resp (List Ev) :=
  watch ext (WorkerMay w ext msg)

theorem wp_silent {q : Request} {Q : q.Val → List Ev → Prop} {X : Exc → List Ev → Prop}
    (hs : q.isSilent = true) (hst : q.isSteady = true) (hok : ∀ v, Q v t) :
    Fallible.wp (handling w ext msg) (ask q) Q X t :=
  wp_watch_steady hst (workerMay_silent w ext msg t q hs) fun v _ =>
    (note_silent hs (.ok v) t).symm ▸ hok v

theorem delete_keeps {Q : Unit → List Ev → Prop} {X : Exc → List Ev → Prop}
    (hmay : ∀ job, msg.job? ext = some job → Settled ext job t)
    (hok : Q () (deleteOk msg.receipt :: t)) (herr : ∀ e, e.isImage = false → X e t) :
    Fallible.wp (handling w ext msg) (w.clients.queue.delete msg.receipt) Q X t :=
  wp_jobQueue_call (workerMay_silent w ext msg) _ _ _
    (wp_retry (.deleteMessage msg.receipt) (workerMay_silent w ext msg) _ _ (fun _ => rfl)
      ⟨rfl, hmay⟩ (fun _ _ => hok)
      fun e he => herr e (not_image_of_failed rfl he))

theorem deleteQuietly_keeps {Q : Unit → List Ev → Prop} {X : Exc → List Ev → Prop}
    (hmay : ∀ job, msg.job? ext = some job → Settled ext job t) (hQ : ∀ t', Q () t') :
    Fallible.wp (handling w ext msg) (w.deleteQuietly msg.receipt) Q X t := by
  unfold Worker.deleteQuietly
  split
  · exact hQ t
  · exact (Fallible.wp_tryExcept _ _).mpr (delete_keeps hmay (hQ _) fun _ _ => hQ _)

theorem count_keeps {status : String} {Q : Unit → List Ev → Prop} {X : Exc → List Ev → Prop}
    (hdue : CountDue ext msg t status) (hnew : ∀ status', countOk status' ∉ t)
    (hok : Q () (countOk status :: t)) :
    Fallible.wp (handling w ext msg) (ask (.metric (.jobsProcessed status))) Q X t :=
  wp_watch_steady rfl ⟨hdue, hnew⟩ fun _ _ => hok

theorem settled_only (hjob : msg.job? ext = some job) (hs : Settled ext job t) (job' : JobMessage)
    (h : msg.job? ext = some job') : Settled ext job' t := by
  rw [hjob] at h
  exact Option.some.inj h ▸ hs

variable (hjob : msg.job? ext = some job)

include hjob in
/-- An attempt at `mark_failed` before anything final was tried. -/
theorem failJob_keeps (hb : Begun ext job t)
    (hwhy : Won job t ∨ job.bucket ≠ w.config.s3Bucket) (reason : String) :
    Fallible.wp (handling w ext msg) (w.failJob job.jobId msg.receipt reason)
      (WorkerDone ext msg) (fun _ _ => True) t := by
  refine (Fallible.wp_tryElse _ _ _ _).mpr ((Fallible.wp_bind _ _ _).mpr
    (wp_silent rfl rfl fun now => ?_))
  refine wp_retry_attempts (.updateItem job.jobId _) (workerMay_silent w ext msg) _ _
    (fun t' ha => ?_) (fun v t' ha _ => ?_) (fun e t' _ _ => ?_) fun e t' _ _ => ?_
  · exact ⟨job, hjob, rfl, hb.looked.mono fun _ => ha.mem,
      .failed reason now (hwhy.imp_left fun hw => hw.mono fun _ => ha.mem) fun v hv ht =>
        hb.terminal_eq ha hv ht⟩
  · have hfailed : updateOk job.jobId (failedUpdate reason now) ∈
        updateOk job.jobId (failedUpdate reason now) :: t' := List.mem_cons_self
    refine (Fallible.wp_bind _ _ _).mpr (count_keeps (.failed hjob hfailed) (fun status hs => ?_)
      ((Fallible.wp_bind _ _ _).mpr (deleteQuietly_keeps
        (settled_only hjob (.failed (List.mem_cons_of_mem _ hfailed))) fun _ => trivial)))
    obtain hs | hs := List.mem_cons.mp hs
    · cases hs
    · exact hb.uncounted_attempts ha status hs
  · split <;> trivial
  · split <;> trivial

include hjob in
theorem uploads_keep {Q : Outputs → List Ev → Prop} {X : Exc → List Ev → Prop} {data : Bytes}
    (thumbs : List RenderedThumbnail) (hg : Going ext job t)
    (hf : fetchOk w.clients.store.bucket job.inputKey data ∈ t)
    (hth : ∀ th ∈ thumbs, Rendered w ext data th)
    (hok : ∀ t', Going ext job t' → (∀ v ∈ t, v ∈ t') → (∀ th ∈ thumbs, uploaded w job th ∈ t') →
      Q (thumbs.map (Worker.thumbnailOutput job.jobId)) t')
    (herr : ∀ e t', e.isImage = false → X e t') :
    Fallible.wp (handling w ext msg) (Fallible.forEach (w.upload job.jobId) thumbs) Q X t := by
  refine Fallible.wp_mono (Fallible.wp_forEach
    (J := fun done rest t' => Going ext job t' ∧ (∀ v ∈ t, v ∈ t') ∧
      ∃ pre, thumbs = pre ++ rest ∧ done = pre.map (Worker.thumbnailOutput job.jobId) ∧
        ∀ th ∈ pre, uploaded w job th ∈ t')
    (X := fun e _ => e.isImage = false) thumbs (fun done th rest t' hJ => ?_) [] t
    ⟨hg, fun _ h => h, [], rfl, rfl, fun _ h => absurd h List.not_mem_nil⟩) ?_
    (fun e t' he => herr e t' he)
  · obtain ⟨hg', hsub, pre, rfl, rfl, hup⟩ := hJ
    have hr : Rendered w ext data th := hth th (List.mem_append_right _ List.mem_cons_self)
    refine (Fallible.wp_bind _ _ _).mpr (wp_retry
      (.putObject _ (outputKey job.jobId th.size) th.data thumbnailContentType)
      (workerMay_silent w ext msg) _ _ (fun _ => rfl)
      ⟨job, data, th, hjob, hg'.won, hsub _ hf, hr, rfl, rfl, rfl, rfl⟩ (fun _ _ => ?_)
      fun e he => not_image_of_failed rfl he)
    refine ⟨hg'.cons _ rfl (fun _ h => by cases h), fun v hv => List.mem_cons_of_mem _ (hsub v hv),
      pre ++ [th], by simp, by simp, fun th' hth' => ?_⟩
    obtain hth' | rfl := by simpa using hth'
    · exact List.mem_cons_of_mem _ (hup th' hth')
    · exact List.mem_cons_self
  · rintro outputs t' ⟨hg', hsub, pre, hpre, houts, hup⟩
    obtain rfl : thumbs = pre := by simpa using hpre
    obtain rfl : outputs = thumbs.map _ := by simpa using houts
    exact hok t' hg' hsub hup

theorem finally_keeps {α : Type} {m : Py α} {f : Py Unit} {Q : α → List Ev → Prop}
    {X : Exc → List Ev → Prop} (h : Fallible.wp (handling w ext msg) m Q X t)
    (hf : ∀ (R : Unit → List Ev → Prop) t', R () t' → Fallible.wp (handling w ext msg) f R X t') :
    Fallible.wp (handling w ext msg) (Fallible.tryFinally m f) Q X t := by
  refine (Fallible.wp_tryFinally _ _).mpr (Fallible.wp_mono h (fun a t' hq => ?_) fun e t' hx => ?_)
  · exact hf _ t' hq
  · exact hf _ t' hx

theorem stage_keeps {α : Type} {m : Py α} {Q : α → List Ev → Prop} {X : Exc → List Ev → Prop}
    (name : String) (h : Fallible.wp (handling w ext msg) m Q X t) :
    Fallible.wp (handling w ext msg) (stage name m) Q X t :=
  finally_keeps h fun _ _ hr => wp_silent rfl rfl fun _ => hr

include hjob in
theorem download_keeps {Q : LocalFile × Nat → List Ev → Prop} {X : Exc → List Ev → Prop}
    (hwon : Won job t)
    (hok : ∀ data, Q (⟨data⟩, data.length) (fetchOk w.clients.store.bucket job.inputKey data :: t))
    (herr : ∀ e t', e.isImage = false → X e t') :
    Fallible.wp (handling w ext msg) (w.clients.store.downloadTo job.inputKey) Q X t := by
  refine (Fallible.wp_bind _ _ _).mpr ((Fallible.wp_bind _ _ _).mpr
    (wp_retry (.getObject w.clients.store.bucket job.inputKey) (workerMay_silent w ext msg) _ _
      (fun _ => rfl) ⟨job, hjob, hwon, rfl, rfl⟩ (fun body _ => ?_)
      fun e he => herr e _ (not_image_of_failed rfl he)))
  refine wp_watch_ask trivial (fun data hread => ?_) fun e he => herr e _ (he.not_image rfl)
  obtain ⟨s, ch, s', hread⟩ := hread.ok
  obtain rfl : body = data := by
    simp only [Cloud.serve] at hread
    exact Except.ok.inj (Prod.mk.inj (Option.some.inj hread)).1
  exact (Fallible.wp_bind _ _ _).mpr (wp_watch_ask trivial (fun _ _ => hok body)
    fun e he => herr e _ (he.not_image rfl))

include hjob in
theorem render_keeps (hg : Going ext job t) :
    Fallible.wp (handling w ext msg) (w.render ext job)
      (fun p t' => Going ext job t' ∧ ∃ data pic thumbs, Produced w ext job t' p data pic thumbs)
      (fun e t' => e.isImage = true → Going ext job t') t := by
  have hnot : ∀ (e : Exc) (t' : List Ev), e.isImage = false → e.isImage = true →
      Going ext job t' := fun e _ h h' => absurd h' (by simp [h])
  refine (Fallible.wp_bind _ _ _).mpr (wp_watch_ask trivial (fun _ _ => ?_)
    fun e _ _ => hg)
  refine finally_keeps ?_ fun _ _ hr => wp_silent rfl rfl fun _ => hr
  refine (Fallible.wp_bind _ _ _).mpr (stage_keeps "download" (download_keeps hjob hg.won
    (fun data => ?_) hnot))
  have hg₁ := hg.cons (fetchOk w.clients.store.bucket job.inputKey data) rfl fun _ h => by cases h
  refine (Fallible.wp_bind _ _ _).mpr (stage_keeps "process" (wp_renderThumbnails
    (workerMay_silent w ext msg) data _ (fun pic exif thumbs hpic hexif hsizes hrend => ?_)
    fun _ _ => hg₁))
  have hth : ∀ th ∈ thumbs, Rendered w ext data th := fun th h =>
    ⟨mem_sortedSizes.mp (hsizes ▸ List.mem_map_of_mem h), hrend th h⟩
  refine (Fallible.wp_bind _ _ _).mpr (stage_keeps "upload" (uploads_keep hjob thumbs hg₁
    List.mem_cons_self hth (fun t' hg' hsub hup => ?_) hnot))
  exact ⟨hg', data, pic, thumbs, hsub _ List.mem_cons_self, hpic, hsizes, hth, hup, hexif, rfl⟩

include hjob in
theorem complete_keeps (hg : Going ext job t) :
    Fallible.wp (handling w ext msg) (w.complete ext job msg.receipt) (WorkerDone ext msg)
      (fun e t' => e.isImage = true → Going ext job t') t := by
  have hnot : ∀ (e : Exc) (t' : List Ev), e.isImage = false → e.isImage = true →
      Going ext job t' := fun e _ h h' => absurd h' (by simp [h])
  refine (Fallible.wp_bind _ _ _).mpr ((Fallible.wp_bind _ _ _).mpr (wp_watch_ask trivial
    (fun _ _ => ?_) fun e _ _ => hg))
  refine finally_keeps ?_ fun _ _ hr => wp_silent rfl rfl fun _ => hr
  refine Fallible.wp_mono (render_keeps hjob hg) ?_ fun _ _ h => h
  rintro p t₁ ⟨hg₁, data, pic, thumbs, hp⟩
  refine (Fallible.wp_bind _ _ _).mpr (wp_silent rfl rfl fun ms => ?_)
  refine (Fallible.wp_bind _ _ _).mpr ((Fallible.wp_bind _ _ _).mpr (wp_silent rfl rfl
    fun now => ?_))
  refine wp_retry_attempts (.updateItem job.jobId (completeUpdate p ms now))
    (workerMay_silent w ext msg) _ _ (fun t' ha => ?_) (fun v t' ha _ => ?_)
    (fun e t' _ he => hnot e _ (he.not_image rfl))
    fun e t' _ he => hnot e t' (not_image_of_giveUp he)
  · exact ⟨job, hjob, rfl, hg₁.looked.mono fun _ => ha.mem,
      .complete ms now (hg₁.won.mono fun _ => ha.mem) (hp.mono fun _ => ha.mem) fun v hv ht =>
        hg₁.terminal_eq ha hv ht⟩
  · have hdone : updateOk job.jobId (completeUpdate p ms now) ∈
        updateOk job.jobId (completeUpdate p ms now) :: t' := List.mem_cons_self
    refine (Fallible.wp_bind _ _ _).mpr (delete_keeps (settled_only hjob (.complete hdone)) ?_
      fun e he => hnot e _ he)
    refine (Fallible.wp_bind _ _ _).mpr (count_keeps
      (.complete hjob (List.mem_cons_of_mem _ hdone) List.mem_cons_self) (fun status hs => ?_) ?_)
    · obtain hs | hs := List.mem_cons.mp hs
      · cases hs
      obtain hs | hs := List.mem_cons.mp hs
      · cases hs
      · exact hg₁.uncounted_attempts ha status hs
    · exact (Fallible.wp_bind _ _ _).mpr (wp_silent rfl rfl fun _ =>
        ⟨job, p, ms, now, [countOk "complete"], _, hjob, rfl, hdone⟩)

include hjob in
theorem attempt_keeps (hg : Going ext job t) :
    Fallible.wp (handling w ext msg) (w.attempt ext job msg.receipt) (WorkerDone ext msg)
      (fun _ _ => True) t := by
  refine (Fallible.wp_bind _ _ _).mpr (wp_silent rfl rfl fun _ => ?_)
  refine finally_keeps ?_ fun _ _ hr => wp_silent rfl rfl fun _ => hr
  refine (Fallible.wp_tryExcept _ _).mpr (Fallible.wp_mono (complete_keeps hjob hg)
    (fun _ _ h => h) fun e t' hx => ?_)
  cases e with
  | imageProcessing reason =>
    exact (Fallible.wp_bind _ _ _).mpr (wp_silent rfl rfl fun _ =>
      failJob_keeps hjob (hx rfl).toBegun (.inl (hx rfl).won) reason)
  | _ => trivial

include hjob in
/-- From the attempt to win the transition on. -/
theorem markProcessing_keeps (hb : Begun ext job t) (hbucket : job.bucket = w.config.s3Bucket) :
    Fallible.wp (handling w ext msg)
      (Fallible.tryElse (w.clients.table.markProcessing job.jobId)
        (fun e => if e.isDependency then pure .retry else Fallible.raise e)
        fun won =>
          if won then w.attempt ext job msg.receipt
          else do
            w.deleteQuietly msg.receipt
            pure .skippedDuplicate)
      (WorkerDone ext msg) (fun _ _ => True) t := by
  refine (Fallible.wp_tryElse _ _ _ _).mpr ((Fallible.wp_tryElse _ _ _ _).mpr
    ((Fallible.wp_bind _ _ _).mpr (wp_silent rfl rfl fun now => ?_)))
  refine wp_retry_attempts (.updateItem job.jobId (processingUpdate now))
    (workerMay_silent w ext msg) _ _ (fun t' ha => ?_) (fun v t' ha _ => ?_)
    (fun e t' ha _ => ?_) fun e t' _ he => ?_
  · have hb' := hb.attempts ha rfl
    exact ⟨job, hjob, rfl, hb'.looked, .processing now hb'.fresh hbucket⟩
  · exact attempt_keeps hjob { (hb.attempts ha rfl).cons (updateOk job.jobId (processingUpdate now))
      rfl (fun _ h => by cases h) with won := ⟨now, List.mem_cons_self⟩ }
  · by_cases hc : e.isConditionFailed = true
    · rw [if_pos hc]
      exact (Fallible.wp_bind _ _ _).mpr (deleteQuietly_keeps
        (settled_only hjob (.lostRace List.mem_cons_self hc)) fun _ => trivial)
    · rw [if_neg hc]
      refine (Fallible.wp_raise _).mpr ?_
      split <;> trivial
  · have hc : e.isConditionFailed = false := by cases e <;> first | rfl | cases he
    simp only [hc, Bool.false_eq_true, if_false]
    refine (Fallible.wp_raise _).mpr ?_
    split <;> trivial

include hjob in
theorem getJob_keeps {Q : Option JobRecord → List Ev → Prop} {X : Exc → List Ev → Prop}
    (hok : ∀ it r, JobTable.decodeItem ext.intOfStr it = .ok r → Q r [readOk job.jobId it])
    (herr : ∀ e t', X e t') :
    Fallible.wp (handling w ext msg) (w.clients.table.getJob ext.intOfStr job.jobId) Q X [] := by
  refine (Fallible.wp_bind _ _ _).mpr (wp_retry (.getItem job.jobId) (workerMay_silent w ext msg)
    _ _ (fun _ => rfl) ⟨rfl, job, hjob, rfl⟩ (fun it _ => ?_) fun e _ => herr e _)
  cases hd : JobTable.decodeItem ext.intOfStr it with
  | ok r => exact hok it r hd
  | error e => exact herr e _

include hjob in
theorem process_keeps :
    Fallible.wp (handling w ext msg) (w.process ext job msg.receipt) (WorkerDone ext msg)
      (fun _ _ => True) [] := by
  refine (Fallible.wp_tryElse _ _ _ _).mpr (getJob_keeps hjob (fun it record hd => ?_)
    fun e t' => by split <;> trivial)
  have hread : readOk job.jobId it ∈ [readOk job.jobId it] := List.mem_cons_self
  have hcount : ∀ status, countOk status ∉ [readOk job.jobId it] := fun _ h => by
    obtain h | h := List.mem_cons.mp h <;> cases h
  cases record with
  | none =>
    exact (Fallible.wp_bind _ _ _).mpr (count_keeps (.missing hjob hread hd) hcount
      ((Fallible.wp_bind _ _ _).mpr (deleteQuietly_keeps
        (settled_only hjob (.missing (List.mem_cons_of_mem _ hread) hd)) fun _ => trivial)))
  | some r =>
    by_cases hr : r.status = .complete
    · simp only [hr, if_true]
      exact (Fallible.wp_bind _ _ _).mpr (deleteQuietly_keeps
        (settled_only hjob (.alreadyComplete hread hd hr)) fun _ => trivial)
    · have hb : Begun ext job [readOk job.jobId it] :=
        ⟨⟨it, r, hread, hd, hr⟩, fun v hv => (List.mem_singleton.mp hv).symm ▸ rfl, hcount⟩
      simp only [hr, if_false]
      by_cases hbucket : job.bucket = w.config.s3Bucket
      · rw [if_neg (not_not.mpr hbucket)]
        exact markProcessing_keeps hjob hb hbucket
      · rw [if_pos hbucket]
        exact failJob_keeps hjob hb (.inr hbucket) _

variable (w ext msg)

/-- **A worker keeps to its protocol**, whatever it is answered. -/
theorem handleMessage_keeps :
    Fallible.wp (handling w ext msg) (w.handleMessage ext msg) (WorkerDone ext msg)
      (fun _ _ => True) [] := by
  unfold Worker.handleMessage
  cases hjob : msg.job? ext with
  | none =>
    exact (Fallible.wp_bind _ _ _).mpr (count_keeps (.malformed hjob)
      (fun _ h => absurd h List.not_mem_nil) ((Fallible.wp_bind _ _ _).mpr
        (deleteQuietly_keeps (fun job h => by rw [hjob] at h; cases h) fun _ => hjob)))
  | some job =>
    by_cases hv : job.schemaVersion > messageSchemaVersion
    · simp only [hv, if_true]
      trivial
    · simp only [hv, if_false]
      exact (Fallible.wp_bind _ _ _).mpr (wp_silent rfl rfl fun _ =>
        finally_keeps (process_keeps hjob) fun _ _ hr => wp_silent rfl rfl fun _ => hr)

end Functions

end PixelForge
