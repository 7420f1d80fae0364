import PixelForge.Effects.Replay
import PixelForge.Shared.Journal
import PixelForge.Shared.Surroundings

/-! # The public operations of the AWS wrappers

`Operation` lists the methods of `S3Store`, `JobQueue` and `JobTable` with their arguments. What leaves
one of them is read off the history of its run: `faults` counts the calls that failed with a transient
error, `sqsErrors` are the labels under which `sqs_errors_total` was incremented.
-/
set_option autoImplicit false

namespace PixelForge
open Effects

inductive Operation
  | putBytes (key : String) (data : Bytes) (contentType : String)
  | getBytes (key : String)
  | downloadTo (key : String)
  | checkStore
  | sendJob (body : String) (attributes : List (String × String))
  | receive (maxMessages waitSeconds : Nat)
  | delete (receiptHandle : String)
  | changeVisibility (receiptHandle : String) (timeoutSeconds : Int)
  | checkQueue
  | putJob (record : JobRecord)
  | getJob (jobId : String)
  | markProcessing (jobId : String)
  | markComplete (jobId : String) (processed : ProcessedOutputs) (processingMs : Int)
  | markFailed (jobId reason : String)
  | checkTable

namespace Operation

def Val : Operation → Type
  | getBytes _ => Bytes
  | downloadTo _ => LocalFile × Nat
  | sendJob _ _ => String
  | receive _ _ => List RawMessage
  | getJob _ => Option JobRecord
  | markProcessing _ => Bool
  | _ => Unit

/-- The body of the method. -/
def body (ext : Externals) (clients : AwsClients) : (op : Operation) → Py op.Val
  | putBytes key data contentType => clients.store.putBytes key data contentType
  | getBytes key => clients.store.getBytes key
  | downloadTo key => clients.store.downloadTo key
  | checkStore => clients.store.check
  | sendJob text attributes => clients.queue.sendJob text attributes
  | receive maxMessages waitSeconds => clients.queue.receive maxMessages waitSeconds
  | delete receiptHandle => clients.queue.delete receiptHandle
  | changeVisibility receiptHandle seconds => clients.queue.changeVisibility receiptHandle seconds
  | checkQueue => JobQueue.check
  | putJob record => clients.table.putJob record
  | getJob jobId => clients.table.getJob ext.intOfStr jobId
  | markProcessing jobId => clients.table.markProcessing jobId
  | markComplete jobId processed ms => clients.table.markComplete jobId processed ms
  | markFailed jobId reason => clients.table.markFailed jobId reason
  | checkTable => JobTable.check

/-- The attempts of the policy that the method's call is made under. -/
def attempts (clients : AwsClients) : Operation → Nat
  | putBytes _ _ _ | getBytes _ | downloadTo _ => clients.store.policy.attempts
  | sendJob _ _ | receive _ _ | delete _ | changeVisibility _ _ => clients.queue.policy.attempts
  | putJob _ | getJob _ | markProcessing _ | markComplete _ _ _ | markFailed _ _ =>
    clients.table.policy.attempts
  | checkStore | checkQueue | checkTable => probePolicy.attempts

end Operation

/-! ## The ladder in a history -/

section Climbing

/-- A call that failed with a transient error. -/
def Ev.isFault (v : Ev) : Bool :=
  match v.2 with
  | .ok _ => false
  | .error e => isTransient e

/-- How many calls failed with a transient error. -/
def faults (h : History) : Nat := h.countP Ev.isFault

/-- A pause of the ladder, or an attempt at `q` that it repeats. -/
def OnTheLadder (q : Request) (swallow : String → Option q.Val) (v : Ev) : Prop :=
  (v.1.isWait = true ∧ v.isFault = false) ∨
    ∃ e, v = ⟨q, .error e⟩ ∧ swallowed swallow e = none ∧ isTransient e = true

/-- `h'` is `h` and then `i` failed attempts at `q`. -/
def Climbing (q : Request) (swallow : String → Option q.Val) (i : Nat) (h h' : History) : Prop :=
  ∃ tail, h' = tail ++ h ∧ (∀ v ∈ tail, OnTheLadder q swallow v) ∧ faults tail = i

variable {ext : Externals} {q : Request} {swallow : String → Option q.Val} {i : Nat}
  {h h' : History}

/-- The interface that writes everything down. -/
abbrev recorded (ext : Externals) : Interface Request Request.Resp History :=
  recorder (fun _ _ => True) (Cloud.Answers ext)

theorem Climbing.refl (q : Request) (swallow : String → Option q.Val) (h : History) :
    Climbing q swallow 0 h h := ⟨[], rfl, fun _ hv => absurd hv List.not_mem_nil, rfl⟩

theorem Climbing.cons (hc : Climbing q swallow i h h') {v : Ev} (hv : OnTheLadder q swallow v) :
    Climbing q swallow (i + if v.isFault then 1 else 0) h (v :: h') := by
  obtain ⟨tail, rfl, htail, rfl⟩ := hc
  exact ⟨v :: tail, rfl, List.forall_mem_cons.mpr ⟨hv, htail⟩, List.countP_cons⟩

theorem Climbing.fault (hc : Climbing q swallow i h h') {e : Exc}
    (hsw : swallowed swallow e = none) (ht : isTransient e = true) :
    Climbing q swallow (i + 1) h (⟨q, .error e⟩ :: h') := by
  have hcons := hc.cons (.inr ⟨e, rfl, hsw, ht⟩)
  rwa [if_pos (show Ev.isFault ⟨q, .error e⟩ = true from ht)] at hcons

theorem Climbing.wait (hc : Climbing q swallow i h h') {q' : Request} (hq' : q'.isWait = true)
    (x : q'.Val) : Climbing q swallow i h (⟨q', .ok x⟩ :: h') := hc.cons (.inl ⟨hq', rfl⟩)

theorem Climbing.faults (hc : Climbing q swallow i h h') : faults h' = i + faults h := by
  obtain ⟨tail, rfl, -, rfl⟩ := hc
  exact List.countP_append

theorem Climbing.mem (hc : Climbing q swallow i h h') {v : Ev} (hv : v ∈ h') :
    v ∈ h ∨ OnTheLadder q swallow v := by
  obtain ⟨tail, rfl, htail, -⟩ := hc
  exact (List.mem_append.mp hv).symm.imp id (htail v)

variable {Q : q.Val → History → Prop} {X : Exc → History → Prop}

/-- **The ladder around one request**, in full. -/
theorem wp_recorded_ladder (policy : RetryPolicy) (operation : String) (hpos : 1 ≤ policy.attempts)
    (hok : ∀ {i h' v}, i < policy.attempts → Climbing q swallow i h h' →
      Cloud.Answers ext q (.ok v) → Q v (⟨q, .ok v⟩ :: h'))
    (hswallow : ∀ {i h' e v}, i < policy.attempts → Climbing q swallow i h h' →
      swallowed swallow e = some v → Q v (⟨q, .error e⟩ :: h'))
    (hraise : ∀ {i h' e}, i < policy.attempts → Climbing q swallow i h h' →
      Cloud.Answers ext q (.error e) → swallowed swallow e = none → isTransient e = false →
      X e (⟨q, .error e⟩ :: h'))
    (hgiveUp : ∀ {text h'}, Climbing q swallow policy.attempts h h' →
      X (.transientDependency text operation) h') :
    Fallible.wp (recorded ext) (callWithRetry policy operation swallow (ask q)) Q X h := by
  refine wp_ladder (J := fun i h' => Climbing q swallow i h h')
    (F := fun i h' => Climbing q swallow i h h') policy operation swallow
    (fun i h' hi hc => (wp_ask q _ _ h').mpr ⟨trivial, ?_⟩) (fun i h' _ _ hc => ?_)
    (fun text h' hc => hgiveUp hc) hpos (.refl q swallow h)
  · rintro (e | v) _ ⟨ha, rfl⟩
    · dsimp only
      cases hsw : swallowed swallow e with
      | some v => exact hswallow hi hc hsw
      | none =>
        cases ht : isTransient e with
        | true => exact hc.fault hsw ht
        | false => exact hraise hi hc ha hsw ht
    · exact hok hi hc ha
  · refine (wp_ask _ _ _ _).mpr ⟨trivial, ?_⟩
    rintro r _ ⟨ha, rfl⟩
    obtain ⟨delay, rfl⟩ := ha.steady rfl
    refine (wp_ask _ _ _ _).mpr ⟨trivial, ?_⟩
    rintro r _ ⟨ha, rfl⟩
    obtain ⟨x, rfl⟩ := ha.steady rfl
    exact (hc.wait rfl delay).wait rfl x

end Climbing

/-! ## Transient errors -/

/-- The read of a response body that failed with a transient error. -/
def Ev.breaksStream (v : Ev) : Bool :=
  match v.1 with
  | .readBody _ => v.isFault
  | _ => false

/-- No response body broke off. -/
def Intact (h : History) : Prop := ∀ v ∈ h, v.breaksStream = false

/-- What leaves a wrapper is no transient error, and stands for `attempts` of them if it is a
`TransientDependencyError`. -/
structure Laddered (attempts : Nat) (e : Exc) (h : History) : Prop where
  permanent : isTransient e = false
  retried : e.isGiveUp = true ↔ faults h = attempts

section Transient

variable {ext : Externals} {clients : AwsClients} {h : History}

/-- Requests that are neither Pillow's nor the read of a body. -/
def Request.isPlainCall : Request → Bool
  | .readBody _ => false
  | q => !q.isPillow

theorem intact_cons {v : Ev} : Intact (v :: h) ↔ v.breaksStream = false ∧ Intact h :=
  List.forall_mem_cons

theorem breaksStream_of_plainCall {q : Request} (hq : q.isPlainCall = true) (r : q.Resp) :
    Ev.breaksStream ⟨q, r⟩ = false := by
  cases q <;> first | rfl | cases hq

theorem not_pillow_of_plainCall {q : Request} (hq : q.isPlainCall = true) : q.isPillow = false := by
  cases q <;> first | rfl | cases hq

theorem Climbing.intact {q : Request} {swallow : String → Option q.Val} {i : Nat} {h' : History}
    (hc : Climbing q swallow i h h') (hq : q.isPlainCall = true) (hh : Intact h) : Intact h' := by
  intro v hv
  obtain hv | ⟨hwait, -⟩ | ⟨e, rfl, -, -⟩ := hc.mem hv
  · exact hh v hv
  · obtain ⟨q', r⟩ := v
    exact breaksStream_of_plainCall (by cases q' <;> first | rfl | cases hwait) r
  · exact breaksStream_of_plainCall hq _

theorem isGiveUp_of_not_own {e : Exc} (he : e.isOwn = false) : e.isGiveUp = false := by
  cases e <;> first | rfl | cases he

/-- An error of some other kind, after fewer failed attempts than there are. -/
theorem laddered_of_permanent {attempts : Nat} {e : Exc} (ht : isTransient e = false)
    (he : e.isGiveUp = false) (hfaults : faults h < attempts) : Laddered attempts e h where
  permanent := ht
  retried := by
    rw [he]
    exact iff_of_false Bool.false_ne_true hfaults.ne

theorem faults_error {q : Request} {e : Exc} (ht : isTransient e = false) :
    faults (⟨q, .error e⟩ :: h) = faults h :=
  List.countP_cons_of_neg (show ¬ isTransient e = true from ht ▸ Bool.false_ne_true)

theorem faults_ok {q : Request} (v : q.Val) : faults (⟨q, .ok v⟩ :: h) = faults h :=
  List.countP_cons_of_neg (show ¬ Ev.isFault ⟨q, .ok v⟩ = true from Bool.false_ne_true)

theorem laddered_retry (q : Request) {swallow : String → Option q.Val}
    (hq : q.isPlainCall = true) (policy : RetryPolicy) (operation : String) (hpos : 1 ≤ policy.attempts)
    (hfaults : faults h = 0) (hh : Intact h) :
    Fallible.wp (recorded ext) (callWithRetry policy operation swallow (ask q))
      (fun _ h' => Intact h' ∧ (swallow = noSwallow → faults h' < policy.attempts))
      (fun e h' => Laddered policy.attempts e h' ∧ Intact h') h := by
  refine wp_recorded_ladder policy operation hpos (fun hi hc _ => ?_) (fun hi hc hsw => ?_)
    (fun hi hc ha hsw ht => ?_) fun hc => ?_
  · rw [faults_ok, hc.faults, hfaults]
    exact ⟨intact_cons.mpr ⟨breaksStream_of_plainCall hq _, hc.intact hq hh⟩, fun _ => hi⟩
  · refine ⟨intact_cons.mpr ⟨breaksStream_of_plainCall hq _, hc.intact hq hh⟩, ?_⟩
    rintro rfl
    rw [swallowed_noSwallow] at hsw
    cases hsw
  · refine ⟨laddered_of_permanent ht
      (isGiveUp_of_not_own (ha.not_own (not_pillow_of_plainCall hq))) ?_,
      intact_cons.mpr ⟨breaksStream_of_plainCall hq _, hc.intact hq hh⟩⟩
    rw [faults_error ht, hc.faults, hfaults]
    exact hi
  · refine ⟨⟨rfl, iff_of_true rfl ?_⟩, hc.intact hq hh⟩
    rw [hc.faults, hfaults, Nat.add_zero]

/-- Everything that leaves `m` is as `Laddered` says. -/
abbrev Sound {α : Type} (ext : Externals) (attempts : Nat) (m : Py α) (h : History) : Prop :=
  Fallible.wp (recorded ext) m (fun _ h' => Intact h')
    (fun e h' => Laddered attempts e h' ∧ Intact h') h

theorem sound_retry (q : Request) {swallow : String → Option q.Val}
    (hq : q.isPlainCall = true) (policy : RetryPolicy) (operation : String) (hpos : 1 ≤ policy.attempts)
    (hfaults : faults h = 0) (hh : Intact h) :
    Sound ext policy.attempts (callWithRetry policy operation swallow (ask q)) h :=
  Fallible.wp_mono (laddered_retry q hq policy operation hpos hfaults hh) (fun _ _ h => h.1)
    fun _ _ h => h

theorem intact_nil : Intact [] := fun _ hv => absurd hv List.not_mem_nil

theorem sound_call (q : Request) (hq : q.isPlainCall = true) (queue : JobQueue) (operation : String)
    (hpos : 1 ≤ queue.policy.attempts) :
    Sound ext queue.policy.attempts (queue.call operation (ask q)) [] := by
  refine (Fallible.wp_tryExcept _ _).mpr
    (Fallible.wp_mono (sound_retry q hq queue.policy operation hpos rfl intact_nil) (fun _ _ h => h) ?_)
  rintro e h' ⟨hladdered, hintact⟩
  refine (Fallible.wp_bind _ _ _).mpr ((wp_ask _ _ _ _).mpr ⟨trivial, ?_⟩)
  rintro r _ ⟨ha, rfl⟩
  obtain ⟨x, rfl⟩ := ha.steady rfl
  refine ⟨⟨hladdered.permanent, ?_⟩, intact_cons.mpr ⟨rfl, hintact⟩⟩
  rw [faults_ok]
  exact hladdered.retried

/-- An update with the time of the call in it. -/
theorem sound_stamped (table : JobTable) (j : String) (u : String → Update)
    (hpos : 1 ≤ table.policy.attempts) : Sound ext table.policy.attempts (do
      let now : String ← ask .utcNow
      table.updateItem j (u now)) [] := by
  refine (Fallible.wp_bind _ _ _).mpr ((wp_ask _ _ _ _).mpr ⟨trivial, ?_⟩)
  rintro r _ ⟨ha, rfl⟩
  obtain ⟨now, rfl⟩ := ha.steady rfl
  have hintact : Intact [⟨.utcNow, .ok now⟩] := intact_cons.mpr ⟨rfl, intact_nil⟩
  exact sound_retry (.updateItem j (u now)) rfl table.policy _ hpos (faults_ok (q := .utcNow) now)
    hintact

theorem sound_markProcessing (table : JobTable) (j : String) (hpos : 1 ≤ table.policy.attempts) :
    Sound ext table.policy.attempts (table.markProcessing j) [] := by
  refine (Fallible.wp_tryElse _ _ _ _).mpr
    (Fallible.wp_mono (sound_stamped table j processingUpdate hpos) (fun _ _ h => h) ?_)
  intro e h' he
  split
  · exact he.2
  · exact he

theorem sound_getJob (intOfStr : String → Option Int) (table : JobTable) (j : String)
    (hpos : 1 ≤ table.policy.attempts) :
    Sound ext table.policy.attempts (table.getJob intOfStr j) [] := by
  refine (Fallible.wp_bind _ _ _).mpr
    (Fallible.wp_mono (laddered_retry (.getItem j) rfl table.policy _ hpos rfl intact_nil) ?_ fun _ _ h => h)
  rintro item h' ⟨hintact, hfaults⟩
  split
  · exact hintact
  · rename_i e he
    rw [JobTable.decodeItem_error he]
    exact ⟨laddered_of_permanent rfl rfl (hfaults rfl), hintact⟩

/-- The body is read after the ladder has returned. -/
theorem wp_getBytes (store : S3Store) (key : String) (hpos : 1 ≤ store.policy.attempts) :
    Fallible.wp (recorded ext) (store.getBytes key)
      (fun _ h' => Intact h' ∧ faults h' < store.policy.attempts)
      (fun e h' => Laddered store.policy.attempts e h' ↔ Intact h') [] := by
  refine (Fallible.wp_bind _ _ _).mpr (Fallible.wp_mono
    (laddered_retry (.getObject _ key) rfl store.policy "s3.get_object" hpos rfl intact_nil) ?_
    fun _ _ h => iff_of_true h.1 h.2)
  rintro body h' ⟨hintact, hfaults⟩
  refine (wp_ask _ _ _ _).mpr ⟨trivial, ?_⟩
  rintro (e | data) _ ⟨ha, rfl⟩
  · cases ht : isTransient e with
    | true =>
      refine iff_of_false (fun hl => ?_) fun hi => ?_
      · rw [hl.permanent] at ht
        cases ht
      · have hbroken : isTransient e = false := (intact_cons.mp hi).1
        rw [hbroken] at ht
        cases ht
    | false =>
      refine iff_of_true (laddered_of_permanent ht (isGiveUp_of_not_own (ha.not_own rfl)) ?_)
        (intact_cons.mpr ⟨ht, hintact⟩)
      rw [faults_error ht]
      exact hfaults rfl
  · refine ⟨intact_cons.mpr ⟨rfl, hintact⟩, ?_⟩
    rw [faults_ok]
    exact hfaults rfl

theorem permanent_of_writeBytes {data : Bytes} {e : Exc}
    (ha : Cloud.Answers ext (.writeBytes data) (.error e)) : isTransient e = false := by
  obtain ⟨s, ch, s', hp⟩ := ha
  obtain hserve | ⟨e', he, hc, -⟩ := Cloud.perform_cases hp
  · cases hserve
  · obtain rfl := Except.error.inj he
    cases e <;> first | rfl | cases hc

theorem wp_downloadTo (store : S3Store) (key : String) (hpos : 1 ≤ store.policy.attempts) :
    Fallible.wp (recorded ext) (store.downloadTo key) (fun _ _ => True)
      (fun e h' => Laddered store.policy.attempts e h' ↔ Intact h') [] := by
  refine (Fallible.wp_bind _ _ _).mpr (Fallible.wp_mono (wp_getBytes store key hpos) ?_
    fun _ _ h => h)
  rintro payload h' ⟨hintact, hfaults⟩
  refine (Fallible.wp_bind _ _ _).mpr ((wp_ask _ _ _ _).mpr ⟨trivial, ?_⟩)
  rintro (e | x) _ ⟨ha, rfl⟩
  · have ht : isTransient e = false := permanent_of_writeBytes ha
    refine iff_of_true (laddered_of_permanent ht (isGiveUp_of_not_own (ha.not_own rfl)) ?_)
      (intact_cons.mpr ⟨rfl, hintact⟩)
    rw [faults_error ht]
    exact hfaults
  · trivial

/-- **What leaves a wrapper is no transient error** exactly when no response body broke off in its
run. -/
theorem wp_operation (clients : AwsClients) (op : Operation) (hpos : 1 ≤ op.attempts clients) :
    Fallible.wp (recorded ext) (op.body ext clients) (fun _ _ => True)
      (fun e h => Laddered (op.attempts clients) e h ↔ Intact h) [] := by
  have hsound : ∀ {α : Type} {attempts : Nat} {m : Py α}, Sound ext attempts m [] →
      Fallible.wp (recorded ext) m (fun _ _ => True)
        (fun e h => Laddered attempts e h ↔ Intact h) [] := fun h =>
    Fallible.wp_mono h (fun _ _ _ => trivial) fun _ _ h => iff_of_true h.1 h.2
  cases op with
  | putBytes key data contentType =>
    exact hsound (sound_retry (.putObject ..) rfl _ _ hpos rfl intact_nil)
  | getBytes key => exact Fallible.wp_mono (wp_getBytes _ key hpos) (fun _ _ _ => trivial) fun _ _ h => h
  | downloadTo key => exact wp_downloadTo _ key hpos
  | checkStore => exact hsound (sound_retry (.headBucket _) rfl _ _ hpos rfl intact_nil)
  | sendJob text attributes => exact hsound (sound_call (.sendMessage ..) rfl _ _ hpos)
  | receive n wait => exact hsound (sound_call (.receiveMessage ..) rfl _ _ hpos)
  | delete receipt => exact hsound (sound_call (.deleteMessage _) rfl _ _ hpos)
  | changeVisibility receipt seconds =>
    exact hsound (sound_call (.changeMessageVisibility ..) rfl _ _ hpos)
  | checkQueue => exact hsound (sound_retry .getQueueAttributes rfl _ _ hpos rfl intact_nil)
  | putJob record => exact hsound (sound_retry (.putItem _) rfl _ _ hpos rfl intact_nil)
  | getJob j => exact hsound (sound_getJob _ _ j hpos)
  | markProcessing j => exact hsound (sound_markProcessing _ j hpos)
  | markComplete j processed ms => exact hsound (sound_stamped _ j _ hpos)
  | markFailed j reason => exact hsound (sound_stamped _ j _ hpos)
  | checkTable =>
    exact hsound ((Fallible.wp_bind _ _ _).mpr
      (sound_retry (.getItem _) rfl _ _ hpos rfl intact_nil))

/-- **The error that leaves a wrapper is never transient**, and all attempts were made before it gave
up, in exactly the runs in which no response body broke off. -/
theorem wrappers_hide_transients {clients : AwsClients} {op : Operation} {e : Exc} {h : History}
    (hpos : 1 ≤ op.attempts clients)
    (hrun : Steps (recorded ext) (op.body ext clients) [] (.ret (.error e)) h) :
    Laddered (op.attempts clients) e h ↔ Intact h :=
  hrun.returned (wp_operation clients op hpos)

end Transient

/-! ## Failed SQS calls -/

/-- The label of an increment of `sqs_errors_total`. -/
def sqsErrorLabel (v : Ev) : Option String :=
  match v.1 with
  | .metric (.sqsErrors operation) => some operation
  | _ => none

/-- The labels under which `sqs_errors_total` was incremented, latest first. -/
def sqsErrors (h : History) : List String := h.filterMap sqsErrorLabel

/-- A failure is counted once under `label`, and a return is not counted. -/
def CountedOnce {α : Type} (label : String) (r : Except Exc α) (h : History) : Prop :=
  match r with
  | .ok _ => sqsErrors h = []
  | .error _ => sqsErrors h = [label]

/-- The SQS call of a `JobQueue` method. -/
def Operation.sqsCall : Operation → Option String
  | sendJob _ _ => some "send_message"
  | receive _ _ => some "receive_message"
  | delete _ => some "delete_message"
  | changeVisibility _ _ => some "change_message_visibility"
  | checkQueue => some "get_queue_attributes"
  | _ => none

/-- The queue answered a probe, were it to deny it. -/
def Ev.reachesQueue : Ev → Bool
  | ⟨.getQueueAttributes, .ok _⟩ => true
  | ⟨.getQueueAttributes, .error e⟩ => (swallowed (swallowDenied ()) e).isSome
  | _ => false

section Counting

variable {ext : Externals} {clients : AwsClients}

theorem sqsErrors_cons {v : Ev} {h : History} (hv : sqsErrorLabel v = none) :
    sqsErrors (v :: h) = sqsErrors h := List.filterMap_cons_none hv

theorem uncountedSqs_ask {q : Request} (hq : ∀ r : q.Resp, sqsErrorLabel ⟨q, r⟩ = none) :
    Fallible.Keeps (recorded ext) (fun h => sqsErrors h = []) (ask q) := by
  intro h hh
  refine (wp_ask _ _ _ _).mpr ⟨trivial, ?_⟩
  rintro (e | v) _ ⟨-, rfl⟩
  · exact (sqsErrors_cons (hq _)).trans hh
  · exact (sqsErrors_cons (hq _)).trans hh

theorem uncountedSqs_retry (q : Request) (policy : RetryPolicy) (operation : String)
    (swallow : String → Option q.Val) (hq : ∀ r : q.Resp, sqsErrorLabel ⟨q, r⟩ = none) :
    Fallible.Keeps (recorded ext) (fun h => sqsErrors h = [])
      (callWithRetry policy operation swallow (ask q)) := by
  refine keeps_callWithRetry (uncountedSqs_ask hq) (fun q' hwait => uncountedSqs_ask fun r => ?_)
    policy operation swallow
  cases q' <;> first | rfl | cases hwait

/-- `_call` counts a failure once, after all the retries. -/
theorem wp_call_counted (q : Request) (queue : JobQueue) (operation : String)
    (hq : ∀ r : q.Resp, sqsErrorLabel ⟨q, r⟩ = none) :
    Fallible.wp (recorded ext) (queue.call operation (ask q)) (fun _ h => sqsErrors h = [])
      (fun _ h => sqsErrors h = [operationLabel operation]) [] := by
  refine (Fallible.wp_tryExcept _ _).mpr
    (Fallible.wp_mono (uncountedSqs_retry q queue.policy operation noSwallow hq [] rfl)
      (fun _ _ h => h) fun e h hh => ?_)
  refine (Fallible.wp_bind _ _ _).mpr ((wp_ask _ _ _ _).mpr ⟨trivial, ?_⟩)
  rintro r _ ⟨ha, rfl⟩
  obtain ⟨x, rfl⟩ := ha.steady rfl
  exact congrArg (_ :: ·) hh

/-- The probe counts nothing, and raises unless the queue answered. -/
theorem wp_checkQueue :
    Fallible.wp (recorded ext) JobQueue.check
      (fun _ h => sqsErrors h = [] ∧ ∃ v ∈ h, v.reachesQueue = true)
      (fun _ h => sqsErrors h = [] ∧ ∀ v ∈ h, v.reachesQueue = false) [] := by
  have hclimb : ∀ {i h'}, Climbing .getQueueAttributes (swallowDenied ()) i [] h' →
      sqsErrors h' = [] ∧ ∀ v ∈ h', v.reachesQueue = false := by
    rintro i h' ⟨tail, rfl, htail, -⟩
    rw [List.append_nil]
    refine ⟨List.filterMap_eq_nil_iff.mpr fun v hv => ?_, fun v hv => ?_⟩
    · obtain ⟨hwait, -⟩ | ⟨e, rfl, -, -⟩ := htail v hv
      · obtain ⟨q', r⟩ := v
        cases q' <;> first | rfl | cases hwait
      · rfl
    · obtain ⟨hwait, -⟩ | ⟨e, rfl, hsw, -⟩ := htail v hv
      · obtain ⟨q', r⟩ := v
        cases q' <;> first | rfl | cases hwait
      · exact congrArg Option.isSome hsw
  refine wp_recorded_ladder probePolicy _ (by decide) (fun _ hc _ => ?_) (fun _ hc hsw => ?_)
    (fun _ hc _ hsw _ => ?_) fun hc => hclimb hc
  · exact ⟨(sqsErrors_cons rfl).trans (hclimb hc).1, _, List.mem_cons_self, rfl⟩
  · exact ⟨(sqsErrors_cons rfl).trans (hclimb hc).1, _, List.mem_cons_self, congrArg Option.isSome hsw⟩
  · exact ⟨(sqsErrors_cons rfl).trans (hclimb hc).1,
      List.forall_mem_cons.mpr ⟨congrArg Option.isSome hsw, (hclimb hc).2⟩⟩

/-- **A failing SQS operation is counted once under its call**, and one that returns is not counted,
unless it is the probe and the queue never answered. -/
theorem sqs_errors_counted {op : Operation} {label : String} (hop : op.sqsCall = some label)
    {r : Except Exc op.Val} {h : History}
    (hrun : Steps (recorded ext) (op.body ext clients) [] (.ret r) h) :
    CountedOnce label r h ↔ (op = .checkQueue → ∃ v ∈ h, v.reachesQueue = true) := by
  have hcounted : ∀ {q : Request} {operation : String} {r : Except Exc q.Val}, op ≠ .checkQueue →
      (∀ r : q.Resp, sqsErrorLabel ⟨q, r⟩ = none) → operationLabel operation = label →
      Steps (recorded ext) (clients.queue.call operation (ask q)) [] (.ret r) h →
      (CountedOnce label r h ↔ (op = .checkQueue → ∃ v ∈ h, v.reachesQueue = true)) := by
    intro q operation r hne hq hlabel hrun
    have hend := hrun.returned (wp_call_counted q clients.queue operation hq)
    refine iff_of_true ?_ fun h => absurd h hne
    cases r with
    | ok v => exact hend
    | error e => exact hlabel ▸ hend
  cases op with
  | sendJob text attributes =>
    obtain rfl := Option.some.inj hop
    exact hcounted (q := .sendMessage ..) nofun (fun _ => rfl) (by rfl) hrun
  | receive n wait =>
    obtain rfl := Option.some.inj hop
    exact hcounted (q := .receiveMessage ..) nofun (fun _ => rfl) (by rfl) hrun
  | delete receipt =>
    obtain rfl := Option.some.inj hop
    exact hcounted (q := .deleteMessage _) nofun (fun _ => rfl) (by rfl) hrun
  | changeVisibility receipt seconds =>
    obtain rfl := Option.some.inj hop
    exact hcounted (q := .changeMessageVisibility ..) nofun (fun _ => rfl) (by rfl) hrun
  | checkQueue =>
    have hend := hrun.returned (wp_checkQueue)
    cases r with
    | ok v => exact iff_of_true hend.1 fun _ => hend.2
    | error e =>
      refine iff_of_false (fun h => ?_) fun h => ?_
      · cases hend.1.symm.trans h
      · obtain ⟨v, hv, hreach⟩ := h rfl
        rw [hend.2 v hv] at hreach
        cases hreach
  | _ => cases hop

end Counting

namespace Surroundings

def accessDenied : Exc := .clientError "AccessDenied" 403 "Access Denied"

/-- The body of an object breaks off, and the caller of `get_bytes` sees it. -/
def brokenOff : Exc := .botoCoreError "IncompleteReadError" "10 read, but total bytes expected is 35."

/-- A run of an operation, from the stores that hold a job. -/
abbrev played (op : Operation) (chs : List Choice) :
    Option (Prog Request Request.Resp (Except Exc op.Val) × Cloud × History) :=
  Prog.play (Cloud.perform small) (op.body small (.build config)) (holding (itemOf (record .pending))) chs

theorem recorded_played {op : Operation} {chs : List Choice} {r : Except Exc op.Val} {s' : Cloud}
    {h : History} (hplay : played op chs = some (.ret r, s', h)) :
    Steps (recorded small) (op.body small (.build config)) [] (.ret r) h := by
  have hrun := Prog.play_steps Cloud.answers_of_perform hplay []
  rwa [List.append_nil] at hrun

/-- A permanent error leaves `put_bytes` as it came. -/
theorem wrappers_hide_transients_denied : ∃ h,
    Steps (recorded small) (Operation.body small (.build config) (.putBytes "k" dotGif "image/gif")) []
      (.ret (.error accessDenied)) h ∧ (Laddered 4 accessDenied h ↔ Intact h) := by
  have hplay : played (.putBytes "k" dotGif "image/gif") [{ fault := .failed accessDenied }] =
      some (.ret (.error accessDenied), _, _) := rfl
  have hrun := recorded_played hplay
  exact ⟨_, hrun, wrappers_hide_transients (by decide) hrun⟩

theorem broken_stream_leaks : ∃ h,
    Steps (recorded small) (Operation.body small (.build config) (.getBytes message.inputKey)) []
      (.ret (.error brokenOff)) h ∧ isTransient brokenOff = true := by
  have hobject : (holding (itemOf (record .pending))).objects config.s3Bucket message.inputKey =
      some ⟨dotGif, "image/gif"⟩ := by
    simp only [holding, Cloud.setMessage_objects, Cloud.setItem_objects, Cloud.setObject_objects,
      and_self, if_true]
  have hget : (holding (itemOf (record .pending))).perform small
      (.getObject config.s3Bucket message.inputKey) {} =
        some (.ok dotGif, holding (itemOf (record .pending))) := by
    simp only [Cloud.perform, Cloud.serve, hobject]
  have hread : Prog.play (Cloud.perform small) (ask (.readBody dotGif))
      (holding (itemOf (record .pending))) [{ fault := .failed brokenOff }] =
        some (.ret (.error brokenOff), holding (itemOf (record .pending)),
          [⟨.readBody dotGif, .error brokenOff⟩]) := rfl
  have hplay : played (.getBytes message.inputKey) [{}, { fault := .failed brokenOff }] =
      some (.ret (.error brokenOff), _, _) := Prog.play_step hget hread
  exact ⟨_, recorded_played hplay, by decide⟩

/-- A delete that is denied. -/
theorem sqs_errors_counted_delete : ∃ h,
    Steps (recorded small) (Operation.body small (.build config) (.delete messageId)) []
      (.ret (.error accessDenied)) h ∧
      (CountedOnce "delete_message" (.error accessDenied : Except Exc Unit) h ↔
        (Operation.delete messageId = .checkQueue → ∃ v ∈ h, v.reachesQueue = true)) := by
  have hplay : played (.delete messageId) [{ fault := .failed accessDenied }, {}] =
      some (.ret (.error accessDenied), _, _) := rfl
  have hrun := recorded_played hplay
  exact ⟨_, hrun, sqs_errors_counted rfl hrun⟩

/-- The probe of a queue that is not there. -/
def noSuchQueue : Exc := .clientError "AWS.SimpleQueueService.NonExistentQueue" 400 "No such queue"

theorem failed_probe_uncounted : ∃ h,
    Steps (recorded small) (Operation.body small (.build config) .checkQueue) []
      (.ret (.error noSuchQueue)) h ∧
      ¬ CountedOnce "get_queue_attributes" (.error noSuchQueue : Except Exc Unit) h := by
  have hplay : played .checkQueue [{ fault := .failed noSuchQueue }] =
      some (.ret (.error noSuchQueue), _, [⟨.getQueueAttributes, .error noSuchQueue⟩]) := rfl
  exact ⟨_, recorded_played hplay, nofun⟩

end Surroundings

end PixelForge
