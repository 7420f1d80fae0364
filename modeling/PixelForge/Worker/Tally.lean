import PixelForge.Worker.Discipline

/-! # What a handling counts

`Ledger` keeps of a history which terminal updates were answered, whether a delete was, and the
increments of `jobs_processed_total`. A handling of a job that has a record counts a completion when
it heard of it and of the delete after it, and a failure when it heard of it (`Ledger.Reckoned`).
-/
set_option autoImplicit false

namespace PixelForge
open Effects

/-! ## Ledgers -/

/-- Whether an update to the status was answered. -/
def Ev.hears (st : JobStatus) (v : Ev) : Bool :=
  match v with
  | ⟨.updateItem _ u, .ok _⟩ => u.target == some st
  | _ => false

/-- Whether a delete was answered. -/
def Ev.deletes (v : Ev) : Bool :=
  match v with
  | ⟨.deleteMessage _, .ok _⟩ => true
  | _ => false

/-- The increment of `jobs_processed_total{status=...}`. -/
def Ev.increment (status : String) (v : Ev) : Nat :=
  match v.1 with
  | .metric (.jobsProcessed s) => if s = status then 1 else 0
  | _ => 0

structure Ledger where
  heardComplete : Bool := false
  heardFailed : Bool := false
  deleted : Bool := false
  completions : Nat := 0
  failures : Nat := 0
deriving DecidableEq, Repr

def Ledger.note (v : Ev) (l : Ledger) : Ledger where
  heardComplete := v.hears .complete || l.heardComplete
  heardFailed := v.hears .failed || l.heardFailed
  deleted := v.deletes || l.deleted
  completions := l.completions + v.increment "complete"
  failures := l.failures + v.increment "failed"

def ledger (h : History) : Ledger := h.foldr Ledger.note {}

/-- Whether a request leaves the ledger, however it is answered. -/
def Request.isUncounted : Request → Bool
  | .updateItem _ _ => false
  | .deleteMessage _ => false
  | .metric (.jobsProcessed _) => false
  | _ => true

theorem Ledger.note_uncounted {q : Request} (hq : q.isUncounted = true) (r : q.Resp) (l : Ledger) :
    Ledger.note ⟨q, r⟩ l = l := by
  cases q with
  | metric m => cases m <;> first | rfl | cases hq
  | _ => first | rfl | cases hq

/-- An update that was refused, or to `PROCESSING`, and a delete that was refused. -/
theorem Ledger.note_error {q : Request} (hq : q.isSteady = false) (e : Exc) (l : Ledger) :
    Ledger.note ⟨q, .error e⟩ l = l := by
  cases q <;> first | rfl | cases hq

/-! ## The handling of a job that has a record -/

/-- The lookup of the job shows a record. -/
def Found (ext : Externals) (job : JobMessage) (q : Request) (r : q.Resp) : Prop :=
  Cloud.Answers ext q r ∧ ∀ it, (⟨q, r⟩ : Ev) = readOk job.jobId it →
    ∃ record, JobTable.decodeItem ext.intOfStr it = .ok (some record)

/-- The ledger of a run. -/
abbrev counting (ext : Externals) (job : JobMessage) : Interface Request Request.Resp Ledger :=
  monitor Ledger.note (fun _ _ => True) (Found ext job)

/-- A completion is counted when it was heard of and the message deleted, a failure when it was
heard of. -/
structure Ledger.Reckoned (l : Ledger) : Prop where
  complete : l.completions = (l.heardComplete && l.deleted).toNat
  failed : l.failures = l.heardFailed.toNat

section Handling

variable {ext : Externals} {w : Worker} {job : JobMessage} {l l' : Ledger}

theorem keeps_uncounted {q : Request} (hq : q.isUncounted = true) :
    Fallible.Keeps (counting ext job) (· = l) (ask q) := by
  rintro _ rfl
  refine (wp_ask q _ _ _).mpr ⟨trivial, ?_⟩
  rintro r _ ⟨-, rfl⟩
  cases r <;> exact Ledger.note_uncounted hq _ _

theorem wp_counting_steady {q : Request} (hq : q.isSteady = true) :
    Fallible.wp (counting ext job) (ask q) (fun v t => t = Ledger.note ⟨q, .ok v⟩ l)
      (fun _ _ => False) l := by
  refine (wp_ask q _ _ _).mpr ⟨trivial, ?_⟩
  rintro r _ ⟨ha, rfl⟩
  obtain ⟨v, rfl⟩ := ha.1.steady hq
  rfl

/-- The ladder around a request: its failures are not in the ledger. -/
theorem wp_counting_retry (q : Request) (hq : q.isSteady = false) (hpillow : q.isPillow = false)
    (policy : RetryPolicy) (operation : String) :
    Fallible.wp (counting ext job) (callWithRetry policy operation noSwallow (ask q))
      (fun v t => Found ext job q (.ok v) ∧ t = Ledger.note ⟨q, .ok v⟩ l)
      (fun e t => e.isImage = false ∧ t = l) l := by
  refine wp_callWithRetry (J := (· = l)) policy operation (fun _ _ => trivial) ?_ ?_ ?_ ?_ ?_ rfl
  · rintro _ q' rfl hwait
    refine ⟨trivial, ?_⟩
    rintro r _ ⟨ha, rfl⟩
    cases q' with
    | uniform high => exact ⟨rfl, ha.1.steady rfl⟩
    | sleep seconds => exact ⟨rfl, ha.1.steady rfl⟩
    | _ => cases hwait
  · rintro _ v _ rfl ⟨ha, rfl⟩
    exact ⟨ha, rfl⟩
  · rintro _ e _ rfl ⟨-, rfl⟩ -
    exact Ledger.note_error hq e _
  · rintro _ e _ rfl ⟨ha, rfl⟩ -
    exact ⟨ha.1.not_image hpillow, Ledger.note_error hq e _⟩
  · rintro _ e rfl he
    exact ⟨not_image_of_giveUp he, rfl⟩

theorem wp_counting_delete (queue : JobQueue) (receipt : String) :
    Fallible.wp (counting ext job) (queue.delete receipt)
      (fun _ t => t = { l with deleted := true }) (fun e t => e.isImage = false ∧ t = l) l := by
  refine (Fallible.wp_tryExcept _ _).mpr (Fallible.wp_mono
    (wp_counting_retry (.deleteMessage receipt) rfl rfl _ _) (fun _ _ h => h.2) fun e t h => ?_)
  refine (Fallible.wp_bind _ _ _).mpr (Fallible.wp_mono (wp_counting_steady rfl)
    (fun _ t' h' => ⟨h.1, ?_⟩) fun _ _ h => h.elim)
  rw [h', h.2]
  rfl

theorem wp_counting_deleteQuietly (receipt : String) :
    Fallible.wp (counting ext job) (w.deleteQuietly receipt)
      (fun _ t => t = l ∨ t = { l with deleted := true }) (fun _ _ => False) l := by
  unfold Worker.deleteQuietly
  split
  · exact .inl rfl
  · exact (Fallible.wp_tryExcept _ _).mpr (Fallible.wp_mono (wp_counting_delete _ receipt)
      (fun _ _ h => .inr h) fun _ _ h => .inl h.2)

theorem wp_counting_drop (receipt : String) (outcome : Outcome) :
    Fallible.wp (counting ext job) (do w.deleteQuietly receipt; pure outcome : Py Outcome)
      (fun _ t => t.Reckoned) (fun _ t => t.Reckoned) {} := by
  refine (Fallible.wp_bind _ _ _).mpr (Fallible.wp_mono (wp_counting_deleteQuietly receipt) ?_
    fun _ _ h => h.elim)
  rintro _ _ (rfl | rfl) <;> exact ⟨rfl, rfl⟩

theorem wp_counting_update {j : String} {u : Update} (table : JobTable) :
    Fallible.wp (counting ext job) (table.updateItem j u)
      (fun _ t => t = Ledger.note (updateOk j u) l) (fun e t => e.isImage = false ∧ t = l) l :=
  Fallible.wp_mono (wp_counting_retry (.updateItem j u) rfl rfl _ _) (fun _ _ h => h.2) fun _ _ h => h

theorem wp_counting_failJob (j receipt reason : String) :
    Fallible.wp (counting ext job) (w.failJob j receipt reason) (fun _ t => t.Reckoned)
      (fun _ t => t.Reckoned) {} := by
  refine (Fallible.wp_tryElse _ _ _ _).mpr ((Fallible.wp_bind _ _ _).mpr (Fallible.wp_mono
    (wp_counting_steady rfl) ?_ fun _ _ h => h.elim))
  rintro now _ rfl
  refine Fallible.wp_mono (wp_counting_update _) ?_ ?_
  · rintro _ _ rfl
    refine (Fallible.wp_bind _ _ _).mpr (Fallible.wp_mono (wp_counting_steady rfl) ?_
      fun _ _ h => h.elim)
    rintro _ _ rfl
    refine (Fallible.wp_bind _ _ _).mpr (Fallible.wp_mono (wp_counting_deleteQuietly receipt) ?_
      fun _ _ h => h.elim)
    rintro _ _ (rfl | rfl) <;> exact ⟨rfl, rfl⟩
  · rintro e _ ⟨-, rfl⟩
    split <;> exact ⟨rfl, rfl⟩

/-- The body of the `try`: what it raises after a verdict on the image leaves the ledger blank. -/
theorem wp_counting_complete (receipt : String) :
    Fallible.wp (counting ext job) (w.complete ext job receipt) (fun _ t => t.Reckoned)
      (fun e t => t.Reckoned ∧ (e.isImage = true → t = {})) {} := by
  have hrender : Fallible.Keeps (counting ext job) (· = ({} : Ledger))
      (Worker.withHeartbeat receipt job.jobId (w.render ext job)) :=
    keeps_render (fun q hq => keeps_uncounted (by
      cases q with
      | metric m => cases m <;> first | rfl | cases hq
      | _ => first | rfl | cases hq)) job receipt
  have hnot : ∀ {e : Exc} {t : Ledger}, e.isImage = false → e.isImage = true → t = {} :=
    fun h h' => absurd h' (by simp [h])
  refine (Fallible.wp_bind _ _ _).mpr (Fallible.wp_mono (hrender _ rfl) ?_ ?_)
  · rintro p _ rfl
    refine (Fallible.wp_bind _ _ _).mpr (Fallible.wp_mono (wp_counting_steady rfl) ?_
      fun _ _ h => h.elim)
    rintro ms _ rfl
    refine (Fallible.wp_bind _ _ _).mpr ((Fallible.wp_bind _ _ _).mpr (Fallible.wp_mono
      (wp_counting_steady rfl) ?_ fun _ _ h => h.elim))
    rintro now _ rfl
    refine Fallible.wp_mono (wp_counting_update _) ?_ ?_
    · rintro _ _ rfl
      refine (Fallible.wp_bind _ _ _).mpr (Fallible.wp_mono (wp_counting_delete _ receipt) ?_ ?_)
      · rintro _ _ rfl
        refine (Fallible.wp_bind _ _ _).mpr (Fallible.wp_mono (wp_counting_steady rfl) ?_
          fun _ _ h => h.elim)
        rintro _ _ rfl
        refine (Fallible.wp_bind _ _ _).mpr (Fallible.wp_mono (wp_counting_steady rfl) ?_
          fun _ _ h => h.elim)
        rintro _ _ rfl
        exact ⟨rfl, rfl⟩
      · rintro e _ ⟨he, rfl⟩
        exact ⟨⟨rfl, rfl⟩, hnot he⟩
    · rintro e _ ⟨he, rfl⟩
      exact ⟨⟨rfl, rfl⟩, hnot he⟩
  · rintro e _ rfl
    exact ⟨⟨rfl, rfl⟩, fun _ => rfl⟩

theorem wp_counting_finally {α : Type} {m : Py α} {f : Py Unit} {A : Ledger → Prop}
    (h : Fallible.wp (counting ext job) m (fun _ => A) (fun _ => A) l)
    (hf : ∀ t, Fallible.Keeps (counting ext job) (· = t) f) :
    Fallible.wp (counting ext job) (Fallible.tryFinally m f) (fun _ => A) (fun _ => A) l := by
  refine (Fallible.wp_tryFinally _ _).mpr (Fallible.wp_mono h (fun _ t hA => ?_) fun _ t hA => ?_)
  · exact Fallible.wp_mono (hf t t rfl) (fun _ _ ht => ht ▸ hA) fun _ _ ht => ht ▸ hA
  · exact Fallible.wp_mono (hf t t rfl) (fun _ _ ht => ht ▸ hA) fun _ _ ht => ht ▸ hA

theorem wp_counting_attempt (receipt : String) :
    Fallible.wp (counting ext job) (w.attempt ext job receipt) (fun _ t => t.Reckoned)
      (fun _ t => t.Reckoned) {} := by
  refine (Fallible.wp_bind _ _ _).mpr (Fallible.wp_mono (wp_counting_steady rfl) ?_
    fun _ _ h => h.elim)
  rintro _ _ rfl
  refine wp_counting_finally ?_ fun _ => keeps_uncounted rfl
  refine (Fallible.wp_tryExcept _ _).mpr (Fallible.wp_mono (wp_counting_complete receipt)
    (fun _ _ h => h) fun e t h => ?_)
  cases e with
  | imageProcessing reason =>
    rw [h.2 rfl]
    refine (Fallible.wp_bind _ _ _).mpr (Fallible.wp_mono (wp_counting_steady rfl) ?_
      fun _ _ h => h.elim)
    rintro _ _ rfl
    exact wp_counting_failJob job.jobId receipt reason
  | _ => exact h.1

theorem wp_counting_markProcessing (table : JobTable) :
    Fallible.wp (counting ext job) (table.markProcessing job.jobId) (fun _ t => t = {})
      (fun _ t => t = {}) {} := by
  refine (Fallible.wp_tryElse _ _ _ _).mpr ((Fallible.wp_bind _ _ _).mpr (Fallible.wp_mono
    (wp_counting_steady rfl) ?_ fun _ _ h => h.elim))
  rintro now _ rfl
  refine Fallible.wp_mono (wp_counting_update table) (fun _ _ h => h) ?_
  rintro e _ ⟨-, rfl⟩
  split <;> rfl

theorem wp_counting_getJob (table : JobTable) :
    Fallible.wp (counting ext job) (table.getJob ext.intOfStr job.jobId)
      (fun record t => record ≠ none ∧ t = {}) (fun _ t => t = {}) {} := by
  refine (Fallible.wp_bind _ _ _).mpr (Fallible.wp_mono
    (wp_counting_retry (.getItem job.jobId) rfl rfl _ _) ?_ fun _ _ h => h.2)
  rintro item _ ⟨hfound, rfl⟩
  obtain ⟨record, hdecode⟩ := hfound.2 item rfl
  simp only [hdecode]
  exact ⟨Option.some_ne_none record, rfl⟩

theorem wp_counting_process (receipt : String) :
    Fallible.wp (counting ext job) (w.process ext job receipt) (fun _ t => t.Reckoned)
      (fun _ t => t.Reckoned) {} := by
  have hcatch : ∀ (e : Exc), Fallible.wp (counting ext job)
      (if e.isDependency then pure .retry else Fallible.raise e : Py Outcome)
      (fun _ t => t.Reckoned) (fun _ t => t.Reckoned) {} := by
    intro e
    split <;> exact ⟨rfl, rfl⟩
  refine (Fallible.wp_tryElse _ _ _ _).mpr (Fallible.wp_mono (wp_counting_getJob _) ?_ ?_)
  · rintro record _ ⟨hsome, rfl⟩
    cases record with
    | none => exact absurd rfl hsome
    | some record =>
      dsimp only
      split
      · exact wp_counting_drop receipt .skippedDuplicate
      · split
        · exact wp_counting_failJob job.jobId receipt _
        · refine (Fallible.wp_tryElse _ _ _ _).mpr (Fallible.wp_mono (wp_counting_markProcessing _)
            ?_ ?_)
          · rintro won _ rfl
            cases won with
            | true => exact wp_counting_attempt receipt
            | false => exact wp_counting_drop receipt .skippedDuplicate
          · rintro e _ rfl
            exact hcatch e
  · rintro e _ rfl
    exact hcatch e

/-- **A handling of a job that has a record counts what it heard of**, however it is answered and
however it ends. -/
theorem wp_counting_handleMessage {msg : RawMessage} (hjob : msg.job? ext = some job) :
    Fallible.wp (counting ext job) (w.handleMessage ext msg) (fun _ t => t.Reckoned)
      (fun _ t => t.Reckoned) {} := by
  unfold Worker.handleMessage
  rw [hjob]
  dsimp only
  split
  · exact ⟨rfl, rfl⟩
  · refine (Fallible.wp_bind _ _ _).mpr (Fallible.wp_mono (wp_counting_steady rfl) ?_
      fun _ _ h => h.elim)
    rintro _ _ rfl
    exact wp_counting_finally (wp_counting_process _) fun _ => keeps_uncounted rfl

end Handling

end PixelForge
