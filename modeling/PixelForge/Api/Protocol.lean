import PixelForge.Api.Service
import PixelForge.Shared.Journal

/-! # What an upload may ask, and when

`CallerMay svc ext u t q`: with the journal `t`, `create_job` on the upload `u` may ask `q`. Every
write belongs to one new record `r` (`Story`), and they come in the order of the source: object,
record, message, and the compensating record only while no send was answered.

`createJob_keeps` shows that `JobService.createJob` keeps to this whatever it is answered.
-/
set_option autoImplicit false

namespace PixelForge
open Effects

abbrev drawOk (j : String) : Ev := ⟨.uuid4, .ok j⟩
abbrev storedOk (b k : String) (data : Bytes) (ct : String) : Ev := ⟨.putObject b k data ct, .ok ()⟩
abbrev recordedOk (d : PyDict) : Ev := ⟨.putItem d, .ok ()⟩
abbrev sentOk (body : String) (attributes : List (String × String)) (mid : String) : Ev :=
  ⟨.sendMessage body attributes, .ok mid⟩

/-- Whether a request is a send. -/
def Request.isSend : Request → Bool
  | .sendMessage _ _ => true
  | _ => false

section Facts

variable (svc : JobService) (ext : Externals) (u : Upload) (r : JobRecord) (t : List Ev)

/-- `r` is a record `create_job` makes for the upload. -/
def IsNew : Prop :=
  ∃ probe jobId traceId createdAt updatedAt,
    r = JobService.newRecord ext u probe jobId traceId createdAt updatedAt

/-- The item `_mark_unqueueable` writes in place of `r`. -/
def Compensates (d : PyDict) : Prop :=
  ∃ e updatedAt completedAt,
    d = JobTable.recordItem (JobService.unqueueable r e updatedAt completedAt)

/-- The writes of a run for the record `r`. -/
def Writes : Request → Prop
  | .putObject b k body ct =>
      b = svc.clients.store.bucket ∧ k = r.inputKey ∧ body = u.data ∧ ct = r.contentType
  | .putItem d => d = JobTable.recordItem r ∨ Compensates r d
  | .sendMessage body _ => body = (svc.newMessage r).toJson ext
  | _ => False

/-- Everything in the journal is about the one new record `r`. -/
structure Story : Prop where
  new : IsNew ext u r
  drawn : drawOk r.jobId ∈ t
  only : ∀ v ∈ t, v = drawOk r.jobId ∨ Writes svc ext u r v.1

/-- The original was stored. -/
def Stored : Prop :=
  storedOk svc.clients.store.bucket r.inputKey u.data r.contentType ∈ t

/-- The new record was written. -/
def Recorded : Prop := recordedOk (JobTable.recordItem r) ∈ t

/-- No compensating record was tried. -/
def Uncompensated : Prop := ∀ d ans, (⟨.putItem d, ans⟩ : Ev) ∈ t → d = JobTable.recordItem r

/-- No send was answered. -/
def Unsent : Prop := ∀ body attributes mid, sentOk body attributes mid ∉ t

end Facts

/-- **The discipline of an upload.** -/
def CallerMay (svc : JobService) (ext : Externals) (u : Upload) (t : List Ev) : Request → Prop
  | .uuid4 => t = []
  | .putObject b k body ct => ∃ r, Story svc ext u r t ∧ (∀ v ∈ t, v.1.isSend = false) ∧
      Writes svc ext u r (.putObject b k body ct)
  | .putItem d => ∃ r, Story svc ext u r t ∧ Stored svc u r t ∧
      (d = JobTable.recordItem r ∧ (∀ v ∈ t, v.1.isSend = false) ∨
        Compensates r d ∧ Recorded r t ∧ Unsent t)
  | .sendMessage body _ => ∃ r, Story svc ext u r t ∧ Stored svc u r t ∧ Recorded r t ∧ Unsent t ∧
      Uncompensated r t ∧ body = (svc.newMessage r).toJson ext
  | .getObject _ _ => False
  | .getItem _ => False
  | .updateItem _ _ => False
  | .deleteMessage _ => False
  | .metric (.jobsProcessed _) => False
  | .receiveMessage _ _ => False
  | .changeMessageVisibility _ _ => False
  | .headBucket _ => False
  | .getQueueAttributes => False
  | _ => True

/-- What holds when `create_job` returns a record. -/
def CallerDone (svc : JobService) (ext : Externals) (u : Upload) (r : JobRecord)
    (t : List Ev) : Prop :=
  Story svc ext u r t ∧ Stored svc u r t ∧ Recorded r t ∧
    ∃ attributes mid, sentOk ((svc.newMessage r).toJson ext) attributes mid ∈ t

theorem callerMay_silent (svc : JobService) (ext : Externals) (u : Upload) (t : List Ev)
    (q : Request) (hq : q.isSilent = true) : CallerMay svc ext u t q := by
  cases q with
  | metric m => cases m <;> trivial
  | _ => trivial

/-! ## The functions -/

section Functions

variable {svc : JobService} {ext : Externals} {u : Upload} {r : JobRecord} {t t' : List Ev}

theorem writes_object : Writes svc ext u r
    (.putObject svc.clients.store.bucket r.inputKey u.data r.contentType) := ⟨rfl, rfl, rfl, rfl⟩

theorem writes_record : Writes svc ext u r (.putItem (JobTable.recordItem r)) := .inl rfl

theorem writes_compensation {d : PyDict} (hd : Compensates r d) :
    Writes svc ext u r (.putItem d) := .inr hd

theorem writes_message (attributes : List (String × String)) :
    Writes svc ext u r (.sendMessage ((svc.newMessage r).toJson ext) attributes) := rfl

theorem Story.cons (h : Story svc ext u r t) {q : Request} (hq : Writes svc ext u r q)
    (ans : q.Resp) : Story svc ext u r (⟨q, ans⟩ :: t) where
  new := h.new
  drawn := List.mem_cons_of_mem _ h.drawn
  only := List.forall_mem_cons.mpr ⟨.inr hq, h.only⟩

theorem Story.attempts (h : Story svc ext u r t) {q : Request} (hq : Writes svc ext u r q)
    (ha : Attempts q t t') : Story svc ext u r t' where
  new := h.new
  drawn := ha.mem h.drawn
  only := fun v hv => by
    obtain hv | ⟨e, rfl⟩ := ha.cases hv
    · exact h.only v hv
    · exact .inr hq

theorem Unsent.attempts (h : Unsent t) {q : Request} (ha : Attempts q t t') : Unsent t' := by
  intro body attributes mid hs
  obtain hs | ⟨e, he⟩ := ha.cases hs
  · exact h body attributes mid hs
  · cases he

theorem noSend_attempts {q : Request} (h : ∀ v ∈ t, v.1.isSend = false) (hq : q.isSend = false)
    (ha : Attempts q t t') : ∀ v ∈ t', v.1.isSend = false := by
  intro v hv
  obtain hv | ⟨e, rfl⟩ := ha.cases hv
  · exact h v hv
  · exact hq

theorem Uncompensated.attempts {q : Request} (h : Uncompensated r t)
    (hq : ∀ d, q = .putItem d → d = JobTable.recordItem r) (ha : Attempts q t t') :
    Uncompensated r t' := by
  intro d ans hd
  obtain hd | ⟨e, he⟩ := ha.cases hd
  · exact h d ans hd
  · exact hq d (congrArg Sigma.fst he).symm

theorem unsent_of_noSend (h : ∀ v ∈ t, v.1.isSend = false) : Unsent t :=
  fun _ _ _ hs => absurd (h _ hs) (by simp [Request.isSend])

/-- The interface of one upload. -/
abbrev uploading (svc : JobService) (ext : Externals) (u : Upload) :
    Interface Request Request.Resp (List Ev) :=
  watch ext (CallerMay svc ext u)

theorem wp_uploading_silent {q : Request} {Q : q.Val → List Ev → Prop}
    {X : Exc → List Ev → Prop} (hs : q.isSilent = true) (hst : q.isSteady = true)
    (hok : ∀ v, Q v t) : Fallible.wp (uploading svc ext u) (ask q) Q X t :=
  wp_watch_steady hst (callerMay_silent svc ext u t q hs) fun v _ =>
    (note_silent hs (.ok v) t).symm ▸ hok v

theorem markUnqueueable_keeps (h : Story svc ext u r t) (hst : Stored svc u r t)
    (hrec : Recorded r t) (hun : Unsent t) (e : Exc) :
    Fallible.wp (uploading svc ext u) (svc.markUnqueueable r e) (fun _ _ => True)
      (fun _ _ => True) t := by
  refine (Fallible.wp_tryExcept _ _).mpr ((Fallible.wp_bind _ _ _).mpr
    (wp_uploading_silent rfl rfl fun updatedAt => (Fallible.wp_bind _ _ _).mpr
      (wp_uploading_silent rfl rfl fun completedAt => ?_)))
  refine wp_retry_attempts (.putItem _) (callerMay_silent svc ext u) _ _ (fun t' ha => ?_)
    (fun _ _ _ _ => trivial) (fun _ _ _ _ => trivial) fun _ _ _ _ => trivial
  have hc : Compensates r
      (JobTable.recordItem (JobService.unqueueable r e updatedAt completedAt)) := ⟨e, _, _, rfl⟩
  exact ⟨r, h.attempts (writes_compensation hc) ha, ha.mem hst, .inr ⟨hc, ha.mem hrec, hun.attempts ha⟩⟩

theorem enqueue_keeps (h : Story svc ext u r t) (hst : Stored svc u r t) (hrec : Recorded r t)
    (hun : Unsent t) (hputs : Uncompensated r t) :
    Fallible.wp (uploading svc ext u) (svc.enqueue ext u r) (CallerDone svc ext u)
      (fun _ _ => True) t := by
  refine (Fallible.wp_bind _ _ _).mpr (wp_uploading_silent rfl rfl fun context => ?_)
  refine (Fallible.wp_tryElse _ _ _ _).mpr (wp_jobQueue_call (callerMay_silent svc ext u) _ _ _ ?_)
  have hcomp : ∀ e t', Attempts (.sendMessage ((svc.newMessage r).toJson ext)
      ((setKey context "job_id" r.jobId).filter fun kv => kv.2 != "")) t t' →
      Fallible.wp (uploading svc ext u)
        (do svc.markUnqueueable r e; Fallible.raise (.enqueueFailed e.str))
        (CallerDone svc ext u) (fun _ _ => True) t' := fun e t' ha =>
    (Fallible.wp_bind _ _ _).mpr (markUnqueueable_keeps (h.attempts (writes_message _) ha) (ha.mem hst)
      (ha.mem hrec) (hun.attempts ha) e)
  refine wp_retry_attempts (.sendMessage _ _) (callerMay_silent svc ext u) _ _ (fun t' ha => ?_)
    (fun mid t' ha _ => ?_) (fun e t' ha _ => hcomp e _ (ha.again e)) fun e t' ha _ => hcomp e t' ha
  · exact ⟨r, h.attempts (writes_message _) ha, ha.mem hst, ha.mem hrec, hun.attempts ha,
      hputs.attempts (fun d hd => by cases hd) ha, rfl⟩
  · refine (Fallible.wp_bind _ _ _).mpr (wp_uploading_silent rfl rfl fun _ =>
      (Fallible.wp_bind _ _ _).mpr (wp_uploading_silent rfl rfl fun _ => ?_))
    exact ⟨(h.attempts (writes_message _) ha).cons (writes_message _) _, List.mem_cons_of_mem _ (ha.mem hst),
      List.mem_cons_of_mem _ (ha.mem hrec), _, mid, List.mem_cons_self⟩

theorem submit_keeps (hnew : IsNew ext u r) :
    Fallible.wp (uploading svc ext u) (svc.submit ext u r) (CallerDone svc ext u)
      (fun _ _ => True) [drawOk r.jobId] := by
  have hdraw : ∀ {P : Ev → Prop}, P (drawOk r.jobId) → ∀ v ∈ [drawOk r.jobId], P v :=
    fun hp v hv => (List.mem_singleton.mp hv).symm ▸ hp
  have h : Story svc ext u r [drawOk r.jobId] := ⟨hnew, List.mem_cons_self, hdraw (.inl rfl)⟩
  have hsend : ∀ v ∈ [drawOk r.jobId], v.1.isSend = false := hdraw rfl
  refine (Fallible.wp_bind _ _ _).mpr (wp_retry (.putObject _ r.inputKey u.data r.contentType)
    (callerMay_silent svc ext u) _ _ (fun _ => rfl) ⟨r, h, hsend, writes_object⟩
    (fun _ _ => ?_) fun _ _ => trivial)
  have h₁ : Story svc ext u r _ := h.cons writes_object (.ok ())
  have hsend₁ : ∀ v ∈ [storedOk svc.clients.store.bucket r.inputKey u.data r.contentType,
      drawOk r.jobId], v.1.isSend = false := List.forall_mem_cons.mpr ⟨rfl, hsend⟩
  refine (Fallible.wp_bind _ _ _).mpr (wp_retry_attempts (.putItem (JobTable.recordItem r))
    (callerMay_silent svc ext u) _ _ (fun t' ha => ?_) (fun _ t' ha _ => ?_)
    (fun _ _ _ _ => trivial) fun _ _ _ _ => trivial)
  · exact ⟨r, h₁.attempts writes_record ha, ha.mem List.mem_cons_self,
      .inl ⟨rfl, noSend_attempts hsend₁ rfl ha⟩⟩
  · have hputs : Uncompensated r t' := Uncompensated.attempts
      (fun d ans hd => by obtain hd | hd := List.mem_cons.mp hd <;> cases hd; cases ‹_›)
      (fun d hd => (Request.putItem.inj hd).symm) ha
    refine enqueue_keeps ((h₁.attempts writes_record ha).cons writes_record _)
      (List.mem_cons_of_mem _ (ha.mem List.mem_cons_self)) List.mem_cons_self
      (unsent_of_noSend (List.forall_mem_cons.mpr ⟨rfl, noSend_attempts hsend₁ rfl ha⟩))
      fun d ans hd => ?_
    obtain hd | hd := List.mem_cons.mp hd
    · exact Request.putItem.inj (congrArg Sigma.fst hd)
    · exact hputs d ans hd

variable (svc ext u)

/-- **An upload keeps to its protocol**, whatever it is answered. -/
theorem createJob_keeps :
    Fallible.wp (uploading svc ext u) (svc.createJob ext u) (CallerDone svc ext u)
      (fun _ _ => True) [] := by
  have hvalidate : Fallible.wp (uploading svc ext u)
      (svc.validateUpload ext u.contentType u.data.length) (fun _ t => t = []) (fun _ _ => True)
      [] := by
    unfold JobService.validateUpload
    split
    · trivial
    · dsimp only
      split <;> trivial
  have hgate : Fallible.wp (uploading svc ext u) (probeImage u.data) (fun _ t => t = [])
      (fun _ _ => True) [] := by
    unfold probeImage
    split
    · trivial
    · refine (Fallible.wp_tryElse _ _ _ _).mpr (wp_watch_ask trivial (fun header _ => ?_)
        fun _ _ => trivial)
      dsimp only
      split
      · trivial
      · split
        · trivial
        · exact rfl
  have hprobe : Fallible.wp (uploading svc ext u) (JobService.probeUpload u.data)
      (fun _ t => t = []) (fun _ _ => True) [] :=
    (Fallible.wp_tryExcept _ _).mpr (Fallible.wp_mono hgate (fun _ _ h => h)
      fun e _ _ => by cases e <;> trivial)
  refine (Fallible.wp_bind _ _ _).mpr (Fallible.wp_mono hvalidate ?_ fun _ _ h => h)
  rintro _ _ rfl
  refine (Fallible.wp_bind _ _ _).mpr (Fallible.wp_mono hprobe ?_ fun _ _ h => h)
  rintro probe _ rfl
  refine (Fallible.wp_bind _ _ _).mpr (wp_watch_steady rfl rfl fun jobId _ => ?_)
  refine (Fallible.wp_bind _ _ _).mpr (wp_uploading_silent rfl rfl fun traceId => ?_)
  refine (Fallible.wp_bind _ _ _).mpr (wp_uploading_silent rfl rfl fun createdAt => ?_)
  refine (Fallible.wp_bind _ _ _).mpr (wp_uploading_silent rfl rfl fun updatedAt => ?_)
  exact submit_keeps ⟨probe, jobId, traceId, createdAt, updatedAt, rfl⟩

end Functions

end PixelForge
