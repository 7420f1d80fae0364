import PixelForge.Worker.Protocol

/-! # A handling without a fault

When every request of a handling is answered and none raises, the message is deleted, and it was
either completed now or found `COMPLETE` (`handleMessage_faultFree`). `NeverRaises` is what the
stages in between need: without a failed answer they return.
-/
set_option autoImplicit false

namespace PixelForge
open Effects

/-- Whether the request was answered without a raise and, where a picture was opened, the rationals
of its EXIF directory convert. -/
def wentWell (ext : Externals) : Ev → Bool
  | ⟨.openImage _, .ok pic⟩ => (extractExif ext (Picture.exif pic)).isOk
  | v => returned v

theorem returned_of_wentWell {ext : Externals} {v : Ev} (h : wentWell ext v = true) :
    returned v = true := by
  unfold wentWell at h
  split at h
  · rfl
  · exact h

/-- The answers without a fault, with a record for the lookup of the job. -/
def answered (ext : Externals) (job : JobMessage) (q : Request) (r : q.Resp) : Prop :=
  wentWell ext ⟨q, r⟩ = true ∧ ∀ it, (⟨q, r⟩ : Ev) = readOk job.jobId it →
    ∃ record, JobTable.decodeItem ext.intOfStr it = .ok (some record)

/-- The interface that keeps the journal and never answers with a fault. -/
abbrev faultless (ext : Externals) (job : JobMessage) :
    Interface Request Request.Resp (List Ev) :=
  monitor note (fun _ _ => True) (answered ext job)

section Rules

variable {ext : Externals} {job : JobMessage} {t : List Ev}

theorem wp_answered_ask {q : Request} {Q : q.Val → List Ev → Prop} {X : Exc → List Ev → Prop}
    (hok : ∀ v, answered ext job q (.ok v) → Q v (note ⟨q, .ok v⟩ t)) :
    Fallible.wp (faultless ext job) (ask q) Q X t := by
  refine (wp_ask q Q X t).mpr ⟨trivial, ?_⟩
  rintro (e | v) _ ⟨ha, rfl⟩
  · cases returned_of_wentWell ha.1
  · exact hok v ha

theorem wp_answered_retry {q : Request} {Q : q.Val → List Ev → Prop} {X : Exc → List Ev → Prop}
    {policy : RetryPolicy} (operation : String) (hpos : policy.attempts ≠ 0)
    (hok : ∀ v, answered ext job q (.ok v) → Q v (note ⟨q, .ok v⟩ t)) :
    Fallible.wp (faultless ext job) (callWithRetry policy operation noSwallow (ask q)) Q X t := by
  obtain ⟨n, hn⟩ := Nat.exists_eq_succ_of_ne_zero hpos
  rw [callWithRetry, hn]
  exact (Fallible.wp_tryElse _ _ _ _).mpr (wp_answered_ask hok)

/-- Without a fault the program returns. -/
def NeverRaises {α : Type} (ext : Externals) (job : JobMessage) (m : Py α) : Prop :=
  ∀ t, Fallible.wp (faultless ext job) m (fun _ _ => True) (fun _ _ => False) t

namespace NeverRaises

variable {α β : Type} {m : Py α}

theorem ask (q : Request) : NeverRaises ext job (ask q) := fun _ => wp_answered_ask fun _ _ => trivial

theorem pure (a : α) : NeverRaises ext job (Pure.pure a : Py α) := fun _ => trivial

theorem bind {f : α → Py β} (hm : NeverRaises ext job m) (hf : ∀ a, NeverRaises ext job (f a)) :
    NeverRaises ext job (m >>= f) := fun t =>
  (Fallible.wp_bind _ _ _).mpr (Fallible.wp_mono (hm t) (fun a t' _ => hf a t') fun _ _ h => h)

theorem tryElse {h : Exc → Py β} {k : α → Py β} (hm : NeverRaises ext job m)
    (hk : ∀ a, NeverRaises ext job (k a)) : NeverRaises ext job (Fallible.tryElse m h k) := fun t =>
  (Fallible.wp_tryElse _ _ _ _).mpr
    (Fallible.wp_mono (hm t) (fun a t' _ => hk a t') fun _ _ h => h.elim)

theorem tryFinally {f : Py Unit} (hm : NeverRaises ext job m) (hf : NeverRaises ext job f) :
    NeverRaises ext job (Fallible.tryFinally m f) := fun t =>
  (Fallible.wp_tryFinally _ _).mpr
    (Fallible.wp_mono (hm t) (fun _ t' _ => hf t') fun _ _ h => h.elim)

theorem retry {policy : RetryPolicy} (operation : String) (hpos : policy.attempts ≠ 0)
    (q : Request) : NeverRaises ext job (callWithRetry policy operation noSwallow (PixelForge.ask q)) :=
  fun _ => wp_answered_retry operation hpos fun _ _ => trivial

theorem forEach {f : α → Py β} (hf : ∀ a, NeverRaises ext job (f a)) (xs : List α) :
    NeverRaises ext job (Fallible.forEach f xs) := by
  induction xs with
  | nil => exact pure []
  | cons x xs ih => exact bind (hf x) fun a => bind ih fun as => pure (a :: as)

/-- The EXIF directory of a picture that was opened can be read. -/
theorem opened {data : Bytes} {f : Picture → PyDict → Py β}
    (hf : ∀ p exif, NeverRaises ext job (f p exif)) :
    NeverRaises ext job (do
      let p : Picture ← PixelForge.ask (.openImage data)
      let exif ← Fallible.ofExcept (extractExif ext p.exif)
      f p exif) := by
  refine fun t => (Fallible.wp_bind _ _ _).mpr (wp_answered_ask fun p hp => ?_)
  have hwell : (extractExif ext (Picture.exif p)).isOk = true := hp.1
  cases hexif : extractExif ext (Picture.exif p) with
  | error e =>
    rw [hexif] at hwell
    cases hwell
  | ok exif => exact hf p exif _

theorem renderThumbnails (source : LocalFile) (sizes : List Nat) :
    NeverRaises ext job (renderThumbnails ext source sizes) := by
  refine bind (ask _) fun _ => tryElse (opened fun p exif => ?_) fun _ => pure _
  exact bind (forEach (fun _ => bind (ask _) fun _ => pure _) _) fun _ => pure _

theorem render (config : Config) :
    NeverRaises ext job ((Worker.build config).render ext job) := by
  have hget : ∀ key, NeverRaises ext job ((Worker.build config).clients.store.downloadTo key) :=
    fun key => bind (bind (retry _ attempts_pos _) fun _ => ask _) fun _ => bind (ask _) fun _ => pure _
  have hstage : ∀ {α : Type} {m : Py α} (name : String), NeverRaises ext job m →
      NeverRaises ext job (stage name m) := fun name hm => tryFinally hm (ask _)
  refine bind (ask _) fun _ => tryFinally (bind (hstage _ (hget _)) fun original => ?_) (ask _)
  refine bind (hstage _ (renderThumbnails _ _)) fun r => ?_
  refine bind (hstage _ (forEach (fun th => ?_) _)) fun outputs => pure _
  exact bind (retry _ attempts_pos _) fun _ => pure _

end NeverRaises

theorem wp_neverRaises {α : Type} {m : Py α} {Q : α → List Ev → Prop} {X : Exc → List Ev → Prop}
    (hm : NeverRaises ext job m) (hQ : ∀ a t', Q a t') : Fallible.wp (faultless ext job) m Q X t :=
  Fallible.wp_mono (hm t) (fun a t' _ => hQ a t') fun _ _ h => h.elim

theorem wp_answered_silent {q : Request} {Q : q.Val → List Ev → Prop} {X : Exc → List Ev → Prop}
    (hs : q.isSilent = true) (hok : ∀ v, Q v t) : Fallible.wp (faultless ext job) (ask q) Q X t :=
  wp_answered_ask fun v _ => (note_silent hs (.ok v) t).symm ▸ hok v

theorem wp_answered_finally {α : Type} {m : Py α} {f : Py Unit} {Q : α → List Ev → Prop}
    {X : Exc → List Ev → Prop} (h : Fallible.wp (faultless ext job) m Q X t)
    (hf : ∀ (R : Unit → List Ev → Prop) t', R () t' → Fallible.wp (faultless ext job) f R X t') :
    Fallible.wp (faultless ext job) (Fallible.tryFinally m f) Q X t := by
  refine (Fallible.wp_tryFinally _ _).mpr (Fallible.wp_mono h (fun a t' hq => ?_) fun e t' hx => ?_)
  · exact hf _ t' hq
  · exact hf _ t' hx

end Rules

/-! ## The handling -/

/-- How a handling without a fault ends. -/
inductive EndsWell (ext : Externals) (msg : RawMessage) (job : JobMessage) (t : List Ev) :
    Outcome → Prop
  | completed {p : ProcessedOutputs} {ms : Int} {now : String}
      (h : updateOk job.jobId (completeUpdate p ms now) ∈ t) (hd : deleteOk msg.receipt ∈ t) :
      EndsWell ext msg job t .completed
  | skipped {it : Option Item} {r : JobRecord} (h : readOk job.jobId it ∈ t)
      (hdec : JobTable.decodeItem ext.intOfStr it = .ok (some r)) (hr : r.status = .complete)
      (hd : deleteOk msg.receipt ∈ t) : EndsWell ext msg job t .skippedDuplicate

section Handling

variable {ext : Externals} {config : Config} {msg : RawMessage} {job : JobMessage} {t : List Ev}

theorem delete_faultFree {Q : Unit → List Ev → Prop} {X : Exc → List Ev → Prop}
    (hok : Q () (deleteOk msg.receipt :: t)) :
    Fallible.wp (faultless ext job) ((Worker.build config).clients.queue.delete msg.receipt) Q X t :=
  (Fallible.wp_tryExcept _ _).mpr (wp_answered_retry _ attempts_pos fun _ _ => hok)

theorem deleteQuietly_faultFree {Q : Unit → List Ev → Prop} {X : Exc → List Ev → Prop}
    (hreceipt : msg.receipt ≠ "") (hok : Q () (deleteOk msg.receipt :: t)) :
    Fallible.wp (faultless ext job) ((Worker.build config).deleteQuietly msg.receipt) Q X t := by
  rw [Worker.deleteQuietly, if_neg hreceipt]
  exact (Fallible.wp_tryExcept _ _).mpr (delete_faultFree hok)

/-- After the transition was won, a run without a fault completes. -/
theorem attempt_faultFree :
    Fallible.wp (faultless ext job) ((Worker.build config).attempt ext job msg.receipt)
      (fun o t' => EndsWell ext msg job t' o) (fun _ _ => False) t := by
  refine (Fallible.wp_bind _ _ _).mpr (wp_answered_silent rfl fun _ => ?_)
  refine wp_answered_finally ?_ fun _ _ hr => wp_answered_silent rfl fun _ => hr
  refine (Fallible.wp_tryExcept _ _).mpr ((Fallible.wp_bind _ _ _).mpr (wp_neverRaises
    (.bind (.ask _) fun _ => .tryFinally (.render config) (.ask _)) fun p t₁ => ?_))
  refine (Fallible.wp_bind _ _ _).mpr (wp_answered_silent rfl fun ms => ?_)
  refine (Fallible.wp_bind _ _ _).mpr ((Fallible.wp_bind _ _ _).mpr (wp_answered_silent rfl
    fun now => wp_answered_retry _ attempts_pos fun _ _ => ?_))
  refine (Fallible.wp_bind _ _ _).mpr (delete_faultFree ((Fallible.wp_bind _ _ _).mpr
    (wp_answered_ask fun _ _ => (Fallible.wp_bind _ _ _).mpr (wp_answered_silent rfl fun _ => ?_))))
  exact .completed (p := p) (List.mem_cons_of_mem _ (List.mem_cons_of_mem _ List.mem_cons_self))
    (List.mem_cons_of_mem _ List.mem_cons_self)

variable (hjob : msg.job? ext = some job) (hbucket : job.bucket = config.s3Bucket)
  (hreceipt : msg.receipt ≠ "")

include hbucket hreceipt in
theorem process_faultFree :
    Fallible.wp (faultless ext job) ((Worker.build config).process ext job msg.receipt)
      (fun o t => EndsWell ext msg job t o) (fun _ _ => False) [] := by
  refine (Fallible.wp_tryElse _ _ _ _).mpr ((Fallible.wp_bind _ _ _).mpr
    (wp_answered_retry _ attempts_pos fun it ⟨_, hfound⟩ => ?_))
  have hread : readOk job.jobId it ∈ [readOk job.jobId it] := List.mem_cons_self
  obtain ⟨r, hdec⟩ := hfound it rfl
  simp only [hdec]
  refine (Fallible.wp_pure _).mpr ?_
  by_cases hr : r.status = .complete
  · simp only [hr, if_true]
    refine (Fallible.wp_bind _ _ _).mpr (deleteQuietly_faultFree hreceipt ?_)
    exact .skipped (List.mem_cons_of_mem _ hread) hdec hr List.mem_cons_self
  · simp only [hr, if_false]
    refine (congrArg (fun m => Fallible.wp (faultless ext job) m _ _ _)
      (if_neg (not_not.mpr hbucket))).mpr ?_
    exact (Fallible.wp_tryElse _ _ _ _).mpr ((Fallible.wp_tryElse _ _ _ _).mpr
      ((Fallible.wp_bind _ _ _).mpr (wp_answered_silent rfl fun now =>
        wp_answered_retry _ attempts_pos fun _ _ => attempt_faultFree)))

include hjob hbucket hreceipt in
/-- **A handling without a fault completes its job, or finds it `COMPLETE`, and deletes the
message.** -/
theorem handleMessage_faultFree (hversion : job.schemaVersion ≤ messageSchemaVersion) :
    Fallible.wp (faultless ext job) ((Worker.build config).handleMessage ext msg)
      (fun o t => EndsWell ext msg job t o) (fun _ _ => False) [] := by
  unfold Worker.handleMessage
  simp only [hjob]
  rw [if_neg (not_lt.mpr hversion)]
  exact (Fallible.wp_bind _ _ _).mpr (wp_answered_silent rfl fun _ =>
    wp_answered_finally (process_faultFree hbucket hreceipt) fun _ _ hr =>
      wp_answered_silent rfl fun _ => hr)

end Handling

end PixelForge
