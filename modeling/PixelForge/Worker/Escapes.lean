import PixelForge.Shared.Codec
import PixelForge.Shared.Journal
import PixelForge.Shared.Surroundings
import PixelForge.Shared.Transitions

/-! # What escapes `handle_message`

`Worker.handleMapping` is `handle_message` of a whole raw message: `handleMessage` with the texts that
`str` makes of its values and the readings of the message attributes, which go into the trace context
and the log and nowhere else.

It may raise in two places, the reading of the message and the validation of the stored item;
`handling_returns` says exactly when. However it ends, the gauge and the log context are as before.
-/
set_option autoImplicit false

namespace PixelForge
open Effects

/-! ## Raw messages -/

/-- `bool(value)`. -/
def PyVal.truthy : PyVal → Bool
  | .none => false
  | .bool b => b
  | .int n => n != 0
  | .float x => x != .finite 0
  | .decimal x => x != .finite 0
  | .str s => s != ""
  | .list vs => !vs.isEmpty
  | .tuple vs => !vs.isEmpty
  | .dict kvs => !kvs.isEmpty

/-- `message.get(name) or {}`, `none` when that is no mapping. -/
def mappingOrEmpty (message : PyDict) (name : String) : Option PyDict :=
  match message.lookup name with
  | none => some []
  | some v =>
    if v.truthy then
      match v with
      | .dict kvs => some kvs
      | _ => none
    else some []

/-- Whether `except (ValidationError, ValueError)` catches it. -/
def Exc.isValueError : Exc → Bool
  | .validation _ => true
  | .python .valueError _ => true
  | _ => false

def attributeError (text : String) : Exc := .python (.other "AttributeError") text

section Mapping

-- `str` is Python's, which refuses an `int` of more digits than `sys.get_int_max_str_digits()`
variable (ext : Externals) (str : PyVal → Except Exc String) (message : PyDict)

/-- `str(message.get(name, ""))`. -/
def textOf (name : String) : Except Exc String :=
  match message.lookup name with
  | none => .ok ""
  | some v => str v

/-- The `StringValue` of one attribute, where it is there and truthy. -/
def stringValue : PyVal → Option PyVal
  | .dict value => (value.lookup "StringValue").filter PyVal.truthy
  | _ => none

/-- The comprehension of `_trace_carrier`. -/
def carriedTexts : PyDict → Except Exc (List (String × String))
  | [] => .ok []
  | (name, value) :: rest =>
    match stringValue value with
    | none => carriedTexts rest
    | some v => do
      let text ← str v
      let texts ← carriedTexts rest
      pure ((name, text) :: texts)

/-- `_trace_carrier`. -/
def traceCarrier : Except Exc (List (String × String)) :=
  match mappingOrEmpty message "MessageAttributes" with
  | none => .error (attributeError "items")
  | some attributes => carriedTexts str attributes

/-- The `try` around the body; `none` stands for its `except` clause. -/
def bodyJob? : Except Exc (Option JobMessage) :=
  match textOf str message "Body" with
  | .ok body => .ok (JobMessage.ofJson? ext body)
  | .error e => if e.isValueError then .ok none else .error e

/-- Whether `int` overflows: on an infinite number, and on nothing else. -/
def PyVal.infinite : PyVal → Bool
  | .float (.inf _) => true
  | .decimal (.inf _) => true
  | _ => false

/-- `_receive_count`, which catches `TypeError` and `ValueError`. The number is only logged. -/
def receiveCount : Except Exc Unit :=
  match mappingOrEmpty message "Attributes" with
  | none => .error (attributeError "get")
  | some attributes =>
    if (attributes.lookup "ApproximateReceiveCount").any PyVal.infinite then
      .error (.python (.other "OverflowError") "cannot convert float infinity to integer")
    else .ok ()

end Mapping

namespace Worker

variable (w : Worker) (ext : Externals) (str : PyVal → Except Exc String)

/-- `_process`. -/
def processMapping (job : JobMessage) (receiptHandle : String) (message : PyDict) : Py Outcome := do
  let _ ← Fallible.ofExcept (receiveCount message)
  w.process ext job receiptHandle

/-- `handle_message` from the `except` clause of the body on. -/
def handleParsed (message : PyDict) (receiptHandle : String) : Option JobMessage → Py Outcome
  | none => do
    ask (.metric (.jobsProcessed "failed"))
    w.deleteQuietly receiptHandle
    pure .malformed
  | some job =>
    if job.schemaVersion > messageSchemaVersion then pure .retry
    else do
      ask (.bindJobContext job.jobId)
      Fallible.tryFinally (w.processMapping ext job receiptHandle message) (ask .clearJobContext)

/-- `handle_message`. -/
def handleMapping (message : PyDict) : Py Outcome := do
  let receiptHandle ← Fallible.ofExcept (textOf str message "ReceiptHandle")
  let _ ← Fallible.ofExcept (traceCarrier str message)
  let job ← Fallible.ofExcept (bodyJob? ext str message)
  w.handleParsed ext message receiptHandle job

/-- With a message as SQS delivers it, that is `handleMessage`. -/
theorem handleMapping_eq {message : PyDict} {receipt body : String}
    {carrier : List (String × String)} (hreceipt : textOf str message "ReceiptHandle" = .ok receipt)
    (hcarrier : traceCarrier str message = .ok carrier) (hbody : textOf str message "Body" = .ok body)
    (hcount : receiveCount message = .ok ()) :
    w.handleMapping ext str message = w.handleMessage ext ⟨some receipt, some body⟩ := by
  have hjob : bodyJob? ext str message = .ok (JobMessage.ofJson? ext body) := by
    rw [bodyJob?, hbody]
  have hprocess : ∀ job, w.processMapping ext job receipt message = w.process ext job receipt := by
    intro job
    rw [processMapping, hcount]
    rfl
  rw [handleMapping, hreceipt, hcarrier, hjob]
  change w.handleParsed ext message receipt (JobMessage.ofJson? ext body) = _
  unfold handleParsed handleMessage RawMessage.job?
  rw [Option.getD_some]
  cases JobMessage.ofJson? ext body with
  | none => rfl
  | some job => simp only [hprocess, RawMessage.receipt, Option.getD_some]

end Worker

/-! ## The gauge and the log context -/

/-- The `jobs_inflight` gauge and the job bound in the log context. -/
structure Readings where
  inflight : Int
  boundJob : Option String
deriving DecidableEq, Repr

/-- What a request does to them. These requests never raise. -/
def Readings.note (v : Ev) (t : Readings) : Readings :=
  match v.1 with
  | .metric .jobsInflightInc => { t with inflight := t.inflight + 1 }
  | .metric .jobsInflightDec => { t with inflight := t.inflight - 1 }
  | .bindJobContext j => { t with boundJob := some j }
  | .clearJobContext => { t with boundJob := none }
  | _ => t

/-- Programs with the readings for a state. -/
def gauged (ext : Externals) : Interface Request Request.Resp Readings :=
  monitor Readings.note (fun _ _ => True) (Cloud.Answers ext)

/-- `m` leaves the readings at `t`. -/
abbrev Level {α : Type} (ext : Externals) (t : Readings) (m : Py α) : Prop :=
  Fallible.Keeps (gauged ext) (· = t) m

section Gauge

variable {ext : Externals} {w : Worker} {t : Readings}

theorem level_ask (q : Request)
    (hq : ∀ (r : q.Resp) t, Readings.note ⟨q, r⟩ t = t) :
    Level ext t (ask q) := by
  rintro _ rfl
  refine (wp_ask q _ _ _).mpr ⟨trivial, ?_⟩
  rintro r _ ⟨-, rfl⟩
  cases r <;> exact hq _ _

theorem level_retry (q : Request) (policy : RetryPolicy) (operation : String)
    (hq : ∀ (r : q.Resp) t, Readings.note ⟨q, r⟩ t = t) :
    Level ext t (callWithRetry policy operation noSwallow (ask q)) := by
  refine keeps_callWithRetry (level_ask q hq) (fun q' hwait => ?_) policy operation noSwallow
  cases q' with
  | uniform high => exact level_ask (.uniform high) fun _ _ => rfl
  | sleep seconds => exact level_ask (.sleep seconds) fun _ _ => rfl
  | _ => cases hwait

theorem level_updateItem (table : JobTable) (j : String) (u : Update) :
    Level ext t (table.updateItem j u) := level_retry (.updateItem j u) _ _ fun _ _ => rfl

theorem level_delete (queue : JobQueue) (receipt : String) :
    Level ext t (queue.delete receipt) :=
  (level_retry (.deleteMessage receipt) _ _ fun _ _ => rfl).tryExcept fun e =>
    (level_ask (.metric (.sqsErrors _)) fun _ _ => rfl).bind fun _ => .raise e

theorem level_deleteQuietly (receipt : String) : Level ext t (w.deleteQuietly receipt) := by
  unfold Worker.deleteQuietly
  split
  · exact .pure ()
  · exact (level_delete _ receipt).tryExcept fun _ => .pure ()

theorem level_failJob (j receipt reason : String) : Level ext t (w.failJob j receipt reason) := by
  have hfailed : Level ext t (w.clients.table.markFailed j reason) :=
    (level_ask .utcNow fun _ _ => rfl).bind fun _ => level_updateItem _ _ _
  refine hfailed.tryElse (fun e => ?_) fun _ => (level_ask (.metric (.jobsProcessed _)) fun _ _ => rfl).bind
    fun _ => (level_deleteQuietly receipt).bind fun _ => .pure _
  split
  · exact .pure _
  · exact .raise e

theorem level_render (job : JobMessage) (receipt : String) :
    Level ext t (Worker.withHeartbeat receipt job.jobId (w.render ext job)) := by
  refine keeps_render (fun q hq => level_ask q ?_) job receipt
  cases q with
  | metric m => cases m <;> first | exact fun _ _ => rfl | cases hq
  | _ => first | exact fun _ _ => rfl | cases hq

theorem level_complete (job : JobMessage) (receipt : String) :
    Level ext t (w.complete ext job receipt) := by
  have hmark : ∀ p ms, Level ext t (w.clients.table.markComplete job.jobId p ms) := fun _ _ =>
    (level_ask .utcNow fun _ _ => rfl).bind fun _ => level_updateItem _ _ _
  exact (level_render job receipt).bind fun p => (level_ask .elapsedMs fun _ _ => rfl).bind fun ms =>
    (hmark p ms).bind fun _ => (level_delete _ receipt).bind fun _ =>
    (level_ask (.metric (.jobsProcessed _)) fun _ _ => rfl).bind fun _ =>
    (level_ask (.metric .jobDuration) fun _ _ => rfl).bind fun _ => .pure _

theorem level_giveUp (job : JobMessage) (receipt : String) (e : Exc) :
    Level ext t (w.giveUp job receipt e) := by
  unfold Worker.giveUp
  split
  · exact (level_ask (.metric .jobDuration) fun _ _ => rfl).bind fun _ => level_failJob _ _ _
  · exact .pure _

theorem gauged_ask {q : Request} {t' : Readings} (hq : q.isSteady = true)
    (hset : ∀ r : q.Resp, Readings.note ⟨q, r⟩ t = t') :
    Fallible.wp (gauged ext) (ask q) (fun _ t₁ => t₁ = t') (fun _ _ => False) t := by
  refine (wp_ask q _ _ _).mpr ⟨trivial, ?_⟩
  rintro r _ ⟨ha, rfl⟩
  obtain ⟨v, rfl⟩ := ha.steady hq
  exact hset _

/-- Readings that are set before a body and set back after it, whatever happens in between. -/
theorem level_bracket {α : Type} {p f : Py Unit} {m : Py α} {t' : Readings}
    (hp : Fallible.wp (gauged ext) p (fun _ t₁ => t₁ = t') (fun _ _ => False) t)
    (hm : Level ext t' m)
    (hf : Fallible.wp (gauged ext) f (fun _ t₁ => t₁ = t) (fun _ _ => False) t') :
    Level ext t (do p; Fallible.tryFinally m f) := by
  rintro _ rfl
  refine (Fallible.wp_bind _ _ _).mpr (Fallible.wp_mono hp ?_ fun _ _ h => h.elim)
  rintro _ _ rfl
  refine (Fallible.wp_tryFinally _ _).mpr (Fallible.wp_mono (hm _ rfl) ?_ ?_)
  · rintro a _ rfl
    exact Fallible.wp_mono hf (fun _ _ h => h) fun _ _ h => h.elim
  · rintro e _ rfl
    exact Fallible.wp_mono hf (fun _ _ h => h) fun _ _ h => h.elim

theorem level_attempt (job : JobMessage) (receipt : String) :
    Level ext t (w.attempt ext job receipt) := by
  have hinc : Fallible.wp (gauged ext) (ask (.metric .jobsInflightInc))
      (fun _ t₁ => t₁ = { t with inflight := t.inflight + 1 }) (fun _ _ => False) t :=
    gauged_ask rfl fun _ => rfl
  have hdec : Fallible.wp (gauged ext) (ask (.metric .jobsInflightDec)) (fun _ t₁ => t₁ = t)
      (fun _ _ => False) { t with inflight := t.inflight + 1 } := by
    refine gauged_ask rfl fun _ => ?_
    simp only [Readings.note, Int.add_sub_cancel]
  exact level_bracket hinc ((level_complete job receipt).tryExcept (level_giveUp job receipt)) hdec

theorem level_process (job : JobMessage) (receipt : String) :
    Level ext t (w.process ext job receipt) := by
  have hdrop : ∀ outcome, Level ext t (do w.deleteQuietly receipt; pure outcome : Py Outcome) :=
    fun _ => (level_deleteQuietly receipt).bind fun _ => .pure _
  have hcatch : ∀ e : Exc, Level ext t
      (if e.isDependency then pure .retry else Fallible.raise e : Py Outcome) := by
    intro e
    split
    · exact .pure _
    · exact .raise e
  have hget : Level ext t (w.clients.table.getJob ext.intOfStr job.jobId) := by
    refine (level_retry (.getItem job.jobId) _ _ fun _ _ => rfl).bind fun item => ?_
    split
    · exact .pure _
    · exact .raise _
  have hmark : Level ext t (w.clients.table.markProcessing job.jobId) := by
    refine Fallible.Keeps.tryElse ((level_ask .utcNow fun _ _ => rfl).bind fun _ => level_updateItem _ _ _)
      (fun e => ?_) fun _ => .pure _
    split
    · exact .pure _
    · exact .raise e
  refine hget.tryElse hcatch fun record => ?_
  cases record with
  | none => exact (level_ask (.metric (.jobsProcessed _)) fun _ _ => rfl).bind fun _ => hdrop .failed
  | some record =>
    dsimp only
    split
    · exact hdrop .skippedDuplicate
    · split
      · exact level_failJob _ _ _
      · refine hmark.tryElse hcatch fun won => ?_
        cases won with
        | false => exact hdrop .skippedDuplicate
        | true => exact level_attempt job receipt

theorem level_handleParsed (w : Worker) (message : PyDict) (receipt : String)
    (job : Option JobMessage) (ht : t.boundJob = none) :
    Level ext t (w.handleParsed ext message receipt job) := by
  cases job with
  | none => exact (level_ask (.metric (.jobsProcessed _)) fun _ _ => rfl).bind fun _ =>
      (level_deleteQuietly _).bind fun _ => .pure _
  | some job =>
    unfold Worker.handleParsed
    dsimp only
    split
    · exact .pure _
    · have hbody : Level ext { t with boundJob := some job.jobId }
          (w.processMapping ext job receipt message) :=
        Fallible.Keeps.bind (.ofExcept _) fun _ => level_process _ _
      have hclear : Fallible.wp (gauged ext) (ask .clearJobContext) (fun _ t₁ => t₁ = t)
          (fun _ _ => False) { t with boundJob := some job.jobId } := by
        refine gauged_ask rfl fun _ => ?_
        simp only [Readings.note, ← ht]
      exact level_bracket (gauged_ask rfl fun _ => rfl) hbody hclear

/-- **However a handling ends, the readings are as before.** -/
theorem level_handleMapping (w : Worker) (str : PyVal → Except Exc String) (message : PyDict)
    (ht : t.boundJob = none) : Level ext t (w.handleMapping ext str message) :=
  Fallible.Keeps.bind (.ofExcept _) fun _ => Fallible.Keeps.bind (.ofExcept _) fun _ =>
    Fallible.Keeps.bind (.ofExcept _) fun _ => level_handleParsed w message _ _ ht

end Gauge

/-! ## AWS calls that fail as documented -/

/-- An AWS call raises a `ClientError` or a `BotoCoreError`, if it raises. -/
def Fault.documented (q : Request) : Fault → Bool
  | .none => true
  | .failed e => !q.isAws || e.isDependency
  | .lost e => !q.isAws || e.isDependency

def Cloud.performAws (ext : Externals) (s : Cloud) (q : Request) (ch : Choice) :
    Option (q.Resp × Cloud) :=
  if ch.fault.documented q then s.perform ext q ch else none

/-- Programs on the stores, whose AWS calls fail in these ways only. -/
def documented (ext : Externals) : Interface Request Request.Resp Cloud where
  may _ _ := True
  exec s q r s' := ∃ ch, s.performAws ext q ch = some (r, s')

/-- `m` does not raise. -/
abbrev Returns {α : Type} (ext : Externals) (m : Py α) (s : Cloud) : Prop :=
  Fallible.wp (documented ext) m (fun _ _ => True) (fun _ _ => False) s

/-- `m` raises nothing but dependency errors. -/
abbrev Dependable {α : Type} (ext : Externals) (m : Py α) (s : Cloud) : Prop :=
  Fallible.wp (documented ext) m (fun _ _ => True) (fun e _ => e.isDependency = true) s

section Returning

variable {ext : Externals} {w : Worker} {s s' : Cloud}

theorem wp_documented {α : Type} (m : Py α) (s : Cloud) :
    Fallible.wp (documented ext) m (fun _ _ => True) (fun _ _ => True) s := by
  refine Effects.wp_mono (wp_of_may (fun _ _ => trivial) m s) fun r _ _ => ?_
  cases r <;> trivial

theorem Cloud.performAws_perform {q : Request} {ch : Choice} {r : q.Resp}
    (h : s.performAws ext q ch = some (r, s')) : s.perform ext q ch = some (r, s') := by
  unfold performAws at h
  split at h
  · exact h
  · cases h

/-- An AWS call raises a dependency error, or what the store itself answers. -/
theorem Cloud.performAws_error {q : Request} {ch : Choice} {e : Exc} (hq : q.isAws = true)
    (h : s.performAws ext q ch = some (.error e, s')) :
    e.isDependency = true ∨ s.serve ext q ch = some (.error e, s') := by
  unfold performAws perform at h
  cases hfault : ch.fault with
  | none =>
    simp only [hfault, Fault.documented, if_true] at h
    exact .inr h
  | failed e' =>
    simp only [hfault, Fault.documented, hq, Bool.not_true, Bool.false_or] at h
    split at h
    · rename_i hdep
      split at h
      · obtain ⟨he, -⟩ := Prod.mk.inj (Option.some.inj h)
        exact .inl (Except.error.inj he ▸ hdep)
      · cases h
    · cases h
  | lost e' =>
    simp only [hfault, Fault.documented, hq, Bool.not_true, Bool.false_or] at h
    split at h
    · rename_i hdep
      split at h
      · obtain ⟨x, -, hx⟩ := Option.map_eq_some_iff.mp h
        obtain ⟨he, -⟩ := Prod.mk.inj hx
        exact .inl (Except.error.inj he ▸ hdep)
      · cases h
    · cases h

theorem returns_ask {q : Request} (hq : q.isSteady = true) (s : Cloud) :
    Returns ext (ask q) s := by
  refine (wp_ask q _ _ _).mpr ⟨trivial, ?_⟩
  rintro r s' ⟨ch, h⟩
  obtain ⟨v, rfl⟩ := Cloud.Answers.steady ⟨s, ch, s', Cloud.performAws_perform h⟩ hq
  trivial

/-- The ladder around an AWS call to which the store itself answers with dependency errors. -/
theorem dependable_retry {q : Request} (hq : q.isAws = true) {J : Cloud → Prop}
    {Q : q.Val → Cloud → Prop} (policy : RetryPolicy) (operation : String)
    (hkeep : ∀ s q' r s', (q'.isWait = true ∨ q' = q) → J s → (documented ext).exec s q' r s' → J s')
    (hok : ∀ s ch v s', J s → s.performAws ext q ch = some (.ok v, s') → Q v s')
    (herr : ∀ s ch e s', J s → s.serve ext q ch = some (.error e, s') → e.isDependency = true)
    (hs : J s) :
    Fallible.wp (documented ext) (callWithRetry policy operation noSwallow (ask q)) Q
      (fun e _ => e.isDependency = true) s := by
  refine wp_callWithRetry (J := J) policy operation (fun _ _ => trivial) (fun s q' h hwait => ?_)
    ?_ (fun s e s' h he _ => hkeep s q _ s' (.inr rfl) h he) ?_ (fun s e _ he => ?_) hs
  · refine ⟨trivial, fun r s' he => ⟨hkeep s q' r s' (.inl hwait) h he, ?_⟩⟩
    obtain ⟨ch, hperform⟩ := he
    have hsteady : q'.isSteady = true := by cases q' <;> first | rfl | cases hwait
    exact Cloud.Answers.steady ⟨s, ch, s', Cloud.performAws_perform hperform⟩ hsteady
  · rintro s v s' h ⟨ch, hperform⟩
    exact hok s ch v s' h hperform
  · rintro s e s' h ⟨ch, hperform⟩ -
    obtain hdep | hserve := Cloud.performAws_error hq hperform
    · exact hdep
    · exact herr s ch e s' h hserve
  · cases e <;> first | rfl | cases he

theorem dependable_updateItem (table : JobTable) (j : String) {u : Update}
    (hser : ∃ sets, serializeDict u.set = .ok sets) (s : Cloud) :
    Dependable ext (table.updateItem j u) s := by
  refine dependable_retry (q := .updateItem j u) (J := fun _ => True) rfl _ _
    (fun _ _ _ _ _ _ _ => trivial) (fun _ _ _ _ _ _ => trivial) (fun s ch e s' _ h => ?_) trivial
  obtain ⟨sets, hsets⟩ := hser
  cases hcond : u.condition.all (·.holds (s.table j)) with
  | true =>
    simp only [Cloud.serve, Update.apply, hsets, hcond, if_true] at h
    cases h
  | false =>
    have hrefused : Except.error conditionFailed = (Except.error e : Request.Resp (.updateItem j u)) := by
      simp only [Cloud.serve, Update.apply, hsets, hcond] at h
      exact (Prod.mk.inj (Option.some.inj h)).1
    rw [← Except.error.inj hrefused]
    rfl

/-- A table that nothing but this handling writes to, up to the lookup. -/
theorem wp_getJob (table : JobTable) (j : String) {items : String → Option Item}
    (hdecode : ∃ record, JobTable.decodeItem ext.intOfStr (items j) = .ok record)
    (hs : s.table = items) : Dependable ext (table.getJob ext.intOfStr j) s := by
  have hget : Fallible.wp (documented ext)
      (callWithRetry table.policy "dynamodb.get_item" noSwallow (ask (.getItem j)))
      (fun (item : Option Item) _ => item = items j) (fun e _ => e.isDependency = true) s := by
    refine dependable_retry (q := .getItem j) (J := fun s => s.table = items) rfl _ _
      (fun s q' r s' hq hs he => ?_) (fun s ch v s' hs h => ?_) (fun s ch e s' _ h => ?_) hs
    · obtain ⟨ch, h⟩ := he
      obtain rfl | heffect := Cloud.perform_effect (Cloud.performAws_perform h)
      · exact hs
      · obtain hwait | rfl := hq
        · cases heffect <;> cases hwait
        · cases heffect
    · have hv := (Prod.mk.inj (Option.some.inj (Cloud.perform_ok (Cloud.performAws_perform h)))).1
      rw [← hs]
      exact (Except.ok.inj hv).symm
    · cases (Prod.mk.inj (Option.some.inj h)).1
  refine (Fallible.wp_bind _ _ _).mpr (Fallible.wp_mono hget ?_ fun _ _ he => he)
  rintro item s' rfl
  obtain ⟨record, hrecord⟩ := hdecode
  simp only [hrecord, Fallible.wp_pure]

/-- `except (TransientDependencyError, ClientError, BotoCoreError): return RETRY`. -/
theorem returns_caught {α : Type} {m : Py α} {k : α → Py Outcome} (hm : Dependable ext m s)
    (hk : ∀ a s, Returns ext (k a) s) :
    Returns ext (Fallible.tryElse m
      (fun e => if e.isDependency then pure .retry else Fallible.raise e) k) s := by
  refine (Fallible.wp_tryElse _ _ _ _).mpr (Fallible.wp_mono hm (fun a s' _ => hk a s') ?_)
  intro e s' he
  rw [if_pos he]
  trivial

theorem returns_bind {α β : Type} {m : Py α} {k : α → Py β} (hm : Returns ext m s)
    (hk : ∀ a s, Returns ext (k a) s) : Returns ext (m >>= k) s :=
  (Fallible.wp_bind _ _ _).mpr (Fallible.wp_mono hm (fun a s' _ => hk a s') fun _ _ h => h)

theorem returns_tryFinally {α : Type} {m : Py α} {f : Py Unit} (hm : Returns ext m s)
    (hf : ∀ s, Returns ext f s) : Returns ext (Fallible.tryFinally m f) s :=
  (Fallible.wp_tryFinally _ _).mpr (Fallible.wp_mono hm
    (fun _ s' _ => Fallible.wp_mono (hf s') (fun _ _ h => h) fun _ _ h => h)
    fun _ _ h => h.elim)

theorem returns_deleteQuietly (receipt : String) (s : Cloud) :
    Returns ext (w.deleteQuietly receipt) s := by
  unfold Worker.deleteQuietly
  split
  · trivial
  · exact (Fallible.wp_tryExcept _ _).mpr (wp_documented _ s)

theorem returns_drop (receipt : String) (outcome : Outcome) (s : Cloud) :
    Returns ext (do w.deleteQuietly receipt; pure outcome : Py Outcome) s :=
  returns_bind (returns_deleteQuietly receipt s) fun _ _ => trivial

theorem dependable_stamped (table : JobTable) (j : String) {u : String → Update}
    (hser : ∀ now, ∃ sets, serializeDict (u now).set = .ok sets) (s : Cloud) :
    Dependable ext (do
      let now : String ← ask .utcNow
      table.updateItem j (u now) : Py Unit) s :=
  (Fallible.wp_bind _ _ _).mpr (Fallible.wp_mono (returns_ask rfl s)
    (fun now s' _ => dependable_updateItem table j (hser now) s') fun _ _ h => h.elim)

theorem returns_failJob (j receipt reason : String) (s : Cloud) :
    Returns ext (w.failJob j receipt reason) s :=
  returns_caught (dependable_stamped _ j (fun _ => ⟨_, rfl⟩) s) fun _ s =>
    returns_bind (returns_ask rfl s) fun _ s => returns_drop receipt .failed s

theorem dependable_markProcessing (table : JobTable) (j : String) (s : Cloud) :
    Dependable ext (table.markProcessing j) s := by
  refine (Fallible.wp_tryElse _ _ _ _).mpr (Fallible.wp_mono
    (dependable_stamped table j (fun _ => ⟨_, rfl⟩) s) (fun _ _ _ => trivial) ?_)
  intro e s' he
  split
  · trivial
  · exact he

theorem returns_attempt (job : JobMessage) (receipt : String) (s : Cloud) :
    Returns ext (w.attempt ext job receipt) s := by
  refine returns_bind (returns_ask rfl s) fun _ s => ?_
  refine returns_tryFinally ?_ (returns_ask rfl)
  refine (Fallible.wp_tryExcept _ _).mpr (Fallible.wp_mono (wp_documented _ s)
    (fun _ _ _ => trivial) fun e s' _ => ?_)
  unfold Worker.giveUp
  split
  · exact returns_bind (returns_ask rfl s') fun _ s => returns_failJob _ _ _ s
  · trivial

theorem returns_process (job : JobMessage) (receipt : String)
    (hdecode : ∃ record, JobTable.decodeItem ext.intOfStr (s.table job.jobId) = .ok record) :
    Returns ext (w.process ext job receipt) s := by
  refine returns_caught (wp_getJob _ _ hdecode rfl) fun record s => ?_
  cases record with
  | none =>
    exact returns_bind (returns_ask rfl s) fun _ s => returns_drop receipt .failed s
  | some record =>
    dsimp only
    split
    · exact returns_drop receipt .skippedDuplicate s
    · split
      · exact returns_failJob _ _ _ s
      · refine returns_caught (dependable_markProcessing _ _ s) fun won s => ?_
        cases won with
        | false => exact returns_drop receipt .skippedDuplicate s
        | true => exact returns_attempt job receipt s

end Returning

/-! ## When it returns -/

/-- An item that is there validates as a `JobRecord`. -/
def ReadableRecord (ext : Externals) (item : Option Item) : Prop :=
  ∀ it, item = some it → it ≠ [] → Reads ext.intOfStr (fromDynamoDict it)

theorem readableRecord_iff {ext : Externals} {item : Option Item} :
    ReadableRecord ext item ↔ ∃ record, JobTable.decodeItem ext.intOfStr item = .ok record := by
  unfold ReadableRecord JobTable.decodeItem
  cases item with
  | none => simp
  | some it =>
    cases it with
    | nil => simp
    | cons kv it =>
      simp only [Option.some.injEq, forall_eq', ne_eq, reduceCtorEq, not_false_eq_true, forall_const,
        JobRecord.fromItem, reads_iff]
      cases JobRecord.ofDict? ext.intOfStr (fromDynamoDict (kv :: it)) <;> simp [Except.map]

/-- What a handling reads has the form it expects. -/
structure Readable (ext : Externals) (str : PyVal → Except Exc String) (message : PyDict) (s : Cloud) :
    Prop where
  receipt : ∃ receipt, textOf str message "ReceiptHandle" = .ok receipt
  traced : ∃ attributes, mappingOrEmpty message "MessageAttributes" = some attributes ∧
    ∀ kv ∈ attributes, ∀ v, stringValue kv.2 = some v → ∃ text, str v = .ok text
  body : ∀ e, textOf str message "Body" = .error e → e.isValueError = true
  counted : ∀ job, bodyJob? ext str message = .ok (some job) →
    job.schemaVersion ≤ messageSchemaVersion →
    ∃ attributes, mappingOrEmpty message "Attributes" = some attributes ∧
      (attributes.lookup "ApproximateReceiveCount").any PyVal.infinite = false
  recorded : ∀ job, bodyJob? ext str message = .ok (some job) →
    job.schemaVersion ≤ messageSchemaVersion → ReadableRecord ext (s.table job.jobId)

section Whole

variable {ext : Externals} {str : PyVal → Except Exc String} {message : PyDict} {s : Cloud}

theorem carriedTexts_ok_iff {attributes : PyDict} :
    (∃ carrier, carriedTexts str attributes = .ok carrier) ↔
      ∀ kv ∈ attributes, ∀ v, stringValue kv.2 = some v → ∃ text, str v = .ok text := by
  induction attributes with
  | nil => exact iff_of_true ⟨[], rfl⟩ fun _ h => absurd h List.not_mem_nil
  | cons kv rest ih =>
    obtain ⟨name, value⟩ := kv
    rw [List.forall_mem_cons, ← ih, carriedTexts]
    cases stringValue value with
    | none => simp
    | some v =>
      simp only [Option.some.injEq, forall_eq']
      constructor
      · rintro ⟨carrier, h⟩
        obtain ⟨text, htext, h⟩ := ok_of_bind_ok h
        obtain ⟨texts, htexts, -⟩ := ok_of_bind_ok h
        exact ⟨⟨text, htext⟩, texts, htexts⟩
      · rintro ⟨⟨text, htext⟩, texts, htexts⟩
        exact ⟨(name, text) :: texts, by rw [htext, htexts]; rfl⟩

theorem traceCarrier_ok_iff : (∃ carrier, traceCarrier str message = .ok carrier) ↔
    ∃ attributes, mappingOrEmpty message "MessageAttributes" = some attributes ∧
      ∀ kv ∈ attributes, ∀ v, stringValue kv.2 = some v → ∃ text, str v = .ok text := by
  unfold traceCarrier
  cases mappingOrEmpty message "MessageAttributes" with
  | none => simp
  | some attributes => simp [carriedTexts_ok_iff]

theorem bodyJob?_ok_iff : (∃ job, bodyJob? ext str message = .ok job) ↔
    ∀ e, textOf str message "Body" = .error e → e.isValueError = true := by
  unfold bodyJob?
  cases textOf str message "Body" with
  | ok body => exact iff_of_true ⟨_, rfl⟩ nofun
  | error e => cases he : e.isValueError <;> simp [he]

theorem receiveCount_ok_iff : receiveCount message = .ok () ↔
    ∃ attributes, mappingOrEmpty message "Attributes" = some attributes ∧
      (attributes.lookup "ApproximateReceiveCount").any PyVal.infinite = false := by
  unfold receiveCount
  cases mappingOrEmpty message "Attributes" with
  | none => simp
  | some attributes =>
    cases h : (attributes.lookup "ApproximateReceiveCount").any PyVal.infinite <;> simp [h]

/-- Once the message is read, its body decides. -/
theorem handleMapping_of_read (w : Worker) {receipt : String} {carrier : List (String × String)}
    {job : Option JobMessage} (hreceipt : textOf str message "ReceiptHandle" = .ok receipt)
    (hcarrier : traceCarrier str message = .ok carrier) (hjob : bodyJob? ext str message = .ok job) :
    w.handleMapping ext str message = w.handleParsed ext message receipt job := by
  rw [Worker.handleMapping, hreceipt, hcarrier, hjob]
  rfl

theorem returns_processMapping (w : Worker) {job : JobMessage} (receipt : String)
    (hcount : receiveCount message = .ok ()) (hrecord : ReadableRecord ext (s.table job.jobId)) :
    Returns ext (w.processMapping ext job receipt message) s := by
  rw [Worker.processMapping, hcount]
  exact returns_process _ _ (readableRecord_iff.mp hrecord)

theorem returns_handleMapping (w : Worker) (h : Readable ext str message s) :
    Returns ext (w.handleMapping ext str message) s := by
  obtain ⟨receipt, hreceipt⟩ := h.receipt
  obtain ⟨carrier, hcarrier⟩ := traceCarrier_ok_iff.mpr h.traced
  obtain ⟨job, hjob⟩ : ∃ job, bodyJob? ext str message = .ok job := bodyJob?_ok_iff.mpr h.body
  rw [handleMapping_of_read w hreceipt hcarrier hjob]
  cases job with
  | none => exact returns_bind (returns_ask rfl s) fun _ s => returns_drop _ .malformed s
  | some job =>
    unfold Worker.handleParsed
    dsimp only
    split
    · trivial
    · rename_i hversion
      have hversion := not_lt.mp hversion
      have hbody : Returns ext (w.processMapping ext job receipt message) s :=
        returns_processMapping w receipt (receiveCount_ok_iff.mpr (h.counted job hjob hversion))
          (h.recorded job hjob hversion)
      refine (Fallible.wp_bind _ _ _).mpr ((wp_ask _ _ _ _).mpr ⟨trivial, ?_⟩)
      rintro r s' ⟨ch, hbind⟩
      have hbind := Cloud.performAws_perform hbind
      obtain ⟨v, rfl⟩ := Cloud.Answers.steady ⟨s, ch, s', hbind⟩ rfl
      obtain rfl | heffect := Cloud.perform_effect hbind
      · exact returns_tryFinally hbody (returns_ask rfl)
      · cases heffect

/-! ## When it raises -/

theorem play_bracketed {m : Py Outcome} {e : Exc} {chs : List Choice} {s' : Cloud} {h : History}
    (j : String) (hm : Prog.play (Cloud.performAws ext) m s chs = some (.ret (.error e), s', h)) :
    ∃ h', Prog.play (Cloud.performAws ext) (do
      ask (.bindJobContext j)
      Fallible.tryFinally m (ask .clearJobContext) : Py Outcome) s
        (({} : Choice) :: (chs ++ [({} : Choice)])) = some (.ret (.error e), s', h') := by
  have hclear : Prog.play (Cloud.performAws ext)
      (Fallible.tryElse (ask .clearJobContext) Fallible.raise fun _ => Fallible.raise e : Py Outcome)
      s' [({} : Choice)] = some (.ret (.error e), s', [⟨.clearJobContext, .ok ()⟩]) := rfl
  have hfinally : Prog.play (Cloud.performAws ext) (Fallible.tryFinally m (ask .clearJobContext)) s
      (chs ++ [({} : Choice)]) = some (.ret (.error e), s', [⟨.clearJobContext, .ok ()⟩] ++ h) :=
    Fallible.play_tryElse_error chs [{}] hm hclear
  have hbind : Prog.play (Cloud.performAws ext) (ask (.bindJobContext j)) s [({} : Choice)] =
      some (.ret (.ok ()), s, [⟨.bindJobContext j, .ok ()⟩]) := rfl
  have hrun := Fallible.play_bind (f := fun _ => Fallible.tryFinally m (ask .clearJobContext)) _ _
    hbind hfinally
  exact ⟨_, hrun⟩

theorem handleParsed_of_job (w : Worker) (receipt : String) {job : JobMessage}
    (hversion : job.schemaVersion ≤ messageSchemaVersion) :
    w.handleParsed ext message receipt (some job) = (do
      ask (.bindJobContext job.jobId)
      Fallible.tryFinally (w.processMapping ext job receipt message) (ask .clearJobContext) :
        Py Outcome) := if_neg (not_lt.mpr hversion)

/-- An item that does not validate is raised out of the lookup. -/
theorem play_unreadable (config : Config) {job : JobMessage} {e : Exc} (receipt : String)
    (hdecode : JobTable.decodeItem ext.intOfStr (s.table job.jobId) = .error e)
    (he : e.isDependency = false) :
    ∃ h, Prog.play (Cloud.performAws ext) ((Worker.build config).process ext job receipt) s [{}] =
      some (.ret (.error e), s, h) := by
  have hpos : (Worker.build config).clients.table.policy.attempts ≠ 0 := by
    change defaultPolicy.attempts ≠ 0
    decide
  have hitem : s.performAws ext (.getItem job.jobId) {} = some (.ok (s.table job.jobId), s) := rfl
  have hget := JobTable.play_getJob hpos hitem hdecode
  have hraise : Prog.play (Cloud.performAws ext)
      (if e.isDependency then pure .retry else Fallible.raise e : Py Outcome) s [] =
        some (.ret (.error e), s, []) := by
    rw [he]
    rfl
  exact ⟨_, Fallible.play_tryElse_error
    (h := fun e : Exc => if e.isDependency then pure Outcome.retry else Fallible.raise e)
    [({} : Choice)] [] hget hraise⟩

theorem decodeItem_raises {item : Option Item} (h : ¬ ReadableRecord ext item) :
    ∃ e, JobTable.decodeItem ext.intOfStr item = .error e ∧ e.isDependency = false := by
  rw [readableRecord_iff] at h
  cases hd : JobTable.decodeItem ext.intOfStr item with
  | ok record => exact absurd ⟨record, hd⟩ h
  | error e =>
    rw [JobTable.decodeItem_error hd]
    exact ⟨_, rfl, rfl⟩

theorem play_processMapping (config : Config) (job : JobMessage) (receipt : String)
    (h : receiveCount message = .ok () → ¬ ReadableRecord ext (s.table job.jobId)) :
    ∃ chs e h', Prog.play (Cloud.performAws ext)
      ((Worker.build config).processMapping ext job receipt message) s chs =
        some (.ret (.error e), s, h') := by
  cases hcount : receiveCount message with
  | error e =>
    refine ⟨[], e, [], ?_⟩
    rw [Worker.processMapping, hcount]
    rfl
  | ok u =>
    obtain ⟨e, hdecode, he⟩ := decodeItem_raises (h hcount)
    obtain ⟨h', hrun⟩ := play_unreadable config receipt hdecode he
    refine ⟨[{}], e, h', ?_⟩
    rw [Worker.processMapping, hcount]
    exact hrun

/-- A message that is read, for a job whose count or item cannot be. -/
theorem play_handleParsed (config : Config) {job : JobMessage} (receipt : String)
    (hversion : job.schemaVersion ≤ messageSchemaVersion)
    (h : receiveCount message = .ok () → ¬ ReadableRecord ext (s.table job.jobId)) :
    ∃ chs e h', Prog.play (Cloud.performAws ext)
      ((Worker.build config).handleParsed ext message receipt (some job)) s chs =
        some (.ret (.error e), s, h') := by
  obtain ⟨chs, e, h', hplay⟩ := play_processMapping config job receipt h
  obtain ⟨hist, hrun⟩ := play_bracketed job.jobId hplay
  rw [handleParsed_of_job _ _ hversion]
  exact ⟨_, e, hist, hrun⟩

/-- A value that is not there is raised before anything is asked. -/
theorem play_ofExcept {α : Type} {x : Except Exc α} (k : α → Py Outcome)
    (h : ∀ a, x = .ok a → ∃ chs e h', Prog.play (Cloud.performAws ext) (k a) s chs =
      some (.ret (.error e), s, h')) :
    ∃ chs e h', Prog.play (Cloud.performAws ext) (Fallible.ofExcept x >>= k : Py Outcome) s chs =
      some (.ret (.error e), s, h') := by
  cases x with
  | error e => exact ⟨[], e, [], rfl⟩
  | ok a => exact h a rfl

theorem play_raises (config : Config) (h : ¬ Readable ext str message s) :
    ∃ chs e h', Prog.play (Cloud.performAws ext)
      ((Worker.build config).handleMapping ext str message) s chs =
        some (.ret (.error e), s, h') := by
  refine play_ofExcept _ fun receipt hreceipt => play_ofExcept _ fun carrier hcarrier =>
    play_ofExcept _ fun job hjob => ?_
  obtain ⟨job, rfl, hversion, hbody⟩ : ∃ job', job = some job' ∧
      job'.schemaVersion ≤ messageSchemaVersion ∧
      (receiveCount message = .ok () → ¬ ReadableRecord ext (s.table job'.jobId)) := by
    by_contra hnone
    push Not at hnone
    have hread : ∀ job', bodyJob? ext str message = .ok (some job') → job = some job' :=
      fun job' hjob' => Except.ok.inj (hjob.symm.trans hjob')
    exact h ⟨⟨receipt, hreceipt⟩, traceCarrier_ok_iff.mp ⟨carrier, hcarrier⟩,
      bodyJob?_ok_iff.mp ⟨job, hjob⟩,
      fun job' hjob' hv => receiveCount_ok_iff.mp (hnone job' (hread job' hjob') hv).1,
      fun job' hjob' hv => (hnone job' (hread job' hjob') hv).2⟩
  exact play_handleParsed config receipt hversion hbody

end Whole

namespace Surroundings

/-- `str` of the values in `partialMessage`. -/
def strOfStr : PyVal → Except Exc String
  | .str s => .ok s
  | _ => .ok ""

def partialMessage : PyDict := [("ReceiptHandle", .str messageId), ("Body", .str messageBody)]

/-- What an `UpdateItem` call leaves of an item that was not there. -/
def partialItem : Item := [("job_id", .s jobId)]

end Surroundings

end PixelForge
