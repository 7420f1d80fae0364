import PixelForge.Effects.Interleaving
import PixelForge.Shared.Records
import PixelForge.Shared.Surroundings
import PixelForge.Worker.Discipline

/-! # One delivery

What one run of `handle_message` does, whatever its requests are answered (`asked`), and from a
given state of the stores, whatever faults it meets (`served`): the message is deleted last, what a
message of a newer schema causes, and what the redelivery of a finished job causes.
-/
set_option autoImplicit false

namespace PixelForge
open Effects

/-- The runs in any surroundings: every request may have any answer there is. -/
abbrev asked (ext : Externals) : Interface Request Request.Resp History :=
  recorder (fun _ _ => True) (Cloud.Answers ext)

/-- The runs on the stores alone, with any fault. -/
abbrev served (ext : Externals) : Interface Request Request.Resp (Cloud × History) :=
  Interface.logged ⟨fun _ _ => True, fun s q r s' => ∃ ch, s.perform ext q ch = some (r, s')⟩
    fun _ _ => True

section Runs

variable {w : Worker} {ext : Externals} {msg : RawMessage} {hist : History}
  {p : Prog Request Request.Resp (Except Exc Outcome)}

/-- What a handling does when it is done, read off its history. -/
def handlingDone (ext : Externals) (msg : RawMessage) : Except Exc Outcome → History → Prop
  | .ok o, h => WorkerDone ext msg o (journal h)
  | .error _, _ => True

theorem handling_keeps (w : Worker) (ext : Externals) (msg : RawMessage) :
    Prog.wp (recorder (fun h q => WorkerMay w ext msg (journal h) q) (Cloud.Answers ext))
      (w.handleMessage ext msg) (handlingDone ext msg) [] := by
  refine Effects.wp_mono (wp_recorder_of_monitor (handleMessage_keeps w ext msg)) ?_
  rintro (e | o) h hq
  · trivial
  · exact hq

theorem permitted_of_asked (h : Steps (asked ext) (w.handleMessage ext msg) [] p hist)
    {later earlier : History} {v : Ev} (ht : hist = later ++ v :: earlier) :
    WorkerMay w ext msg (journal earlier) v.1 :=
  (h.congr (J := recorder (fun h q => WorkerMay w ext msg (journal h) q) (Cloud.Answers ext))
    fun _ _ _ _ he => he).permitted (handling_keeps w ext msg) ht

/-! ## The message is deleted last -/

theorem Settled.mono {job : JobMessage} {t t' : List Ev} (h : Settled ext job t)
    (hsub : ∀ v ∈ t, v ∈ t') : Settled ext job t' := by
  cases h with
  | missing h hd => exact .missing (hsub _ h) hd
  | alreadyComplete h hd hr => exact .alreadyComplete (hsub _ h) hd hr
  | lostRace h he => exact .lostRace (hsub _ h) he
  | complete h => exact .complete (hsub _ h)
  | failed h => exact .failed (hsub _ h)

theorem history_of_journal {t₁ t₂ : List Ev} {v : Ev} (h : journal hist = t₁ ++ v :: t₂) :
    ∃ h₁ h₂, hist = h₁ ++ v :: h₂ ∧ ∀ v' ∈ t₂, v' ∈ h₂ := by
  rw [journal_eq_filter] at h
  obtain ⟨h₁, h₂, rfl, -, hv⟩ := List.filter_eq_append_iff.mp h
  obtain ⟨h₃, h₄, rfl, -, -, rfl⟩ := List.filter_eq_cons_iff.mp hv
  exact ⟨h₁ ++ h₃, h₄, by simp, fun v' hv' => List.mem_of_mem_filter hv'⟩

/-- **The message is deleted last**: a delete is asked for only after the body failed validation or
one of the reasons of `Settled`; without one, no delete was asked for; and `COMPLETED` is returned
only after `mark_complete` and then the delete have returned. -/
theorem deleted_last (h : Steps (asked ext) (w.handleMessage ext msg) [] p hist) :
    (∀ later earlier receipt ans, hist = later ++ ⟨.deleteMessage receipt, ans⟩ :: earlier →
      msg.job? ext = none ∨ ∃ job, msg.job? ext = some job ∧ Settled ext job earlier) ∧
    (∀ job, msg.job? ext = some job → ¬ Settled ext job hist →
      ∀ v ∈ hist, ∀ receipt, v.1 ≠ .deleteMessage receipt) ∧
    (p = .ret (.ok .completed) → ∃ job done ms now later earlier, msg.job? ext = some job ∧
      hist = later ++ deleteOk msg.receipt :: earlier ∧
      updateOk job.jobId (completeUpdate done ms now) ∈ earlier) := by
  have hdelete : ∀ {later earlier receipt ans},
      hist = later ++ ⟨.deleteMessage receipt, ans⟩ :: earlier →
      ∀ job, msg.job? ext = some job → Settled ext job earlier := fun ht job hjob =>
    ((permitted_of_asked h ht).2 job hjob).mono fun _ => mem_of_mem_journal
  refine ⟨fun later earlier receipt ans ht => ?_, fun job hjob hs v hv receipt hq => ?_,
    fun hp => ?_⟩
  · cases hjob : msg.job? ext with
    | none => exact .inl rfl
    | some job => exact .inr ⟨job, rfl, hdelete ht job hjob⟩
  · obtain ⟨later, earlier, ht⟩ := List.append_of_mem hv
    obtain ⟨q, ans⟩ := v
    obtain rfl : q = .deleteMessage receipt := hq
    refine hs ((hdelete ht job hjob).mono fun v hv => ?_)
    rw [ht]
    exact List.mem_append_right _ (List.mem_cons_of_mem _ hv)
  · subst hp
    have hdone : handlingDone ext msg (.ok .completed) hist :=
      (h.congr (J := recorder (fun h q => WorkerMay w ext msg (journal h) q) (Cloud.Answers ext))
        fun _ _ _ _ he => he).returned (handling_keeps w ext msg)
    obtain ⟨job, done, ms, now, t₁, t₂, hjob, ht, hv⟩ := hdone
    obtain ⟨later, earlier, hsplit, hsub⟩ := history_of_journal ht
    exact ⟨job, done, ms, now, later, earlier, hjob, hsplit, hsub _ hv⟩

/-! ## A message of a newer schema -/

/-- Whether a request deletes the message or changes a record or a counter. -/
def Request.leavesTrace : Request → Bool
  | .deleteMessage _ => true
  | .putItem _ => true
  | .updateItem _ _ => true
  | .metric _ => true
  | _ => false

/-- The handling returns `RETRY`, whatever it is answered, and leaves no trace. -/
structure LeftAlone (w : Worker) (ext : Externals) (msg : RawMessage) : Prop where
  returns : ∃ h, Steps (asked ext) (w.handleMessage ext msg) [] (.ret (.ok .retry)) h
  retries : ∀ res h, Steps (asked ext) (w.handleMessage ext msg) [] (.ret res) h → res = .ok .retry
  untouched : ∀ p h, Steps (asked ext) (w.handleMessage ext msg) [] p h →
    ∀ v ∈ h, v.1.leavesTrace = false

/-- The fields that validation requires to be strings. -/
def requiredFields : List String :=
  ["job_id", "bucket", "input_key", "content_type", "filename", "submitted_at"]

theorem readStr_iff {d : PyDict} {name : String} :
    (∃ s, d.lookup name = some (.str s)) ↔ (readStr d name).isSome = true := by
  unfold readStr
  split
  · rename_i s hs
    simp [hs]
  · rename_i hno
    simpa using hno

/-- Validation of an object with an integer version fails exactly when one of the other fields is
missing or not a string. -/
theorem ofDict?_isSome (intOfStr : String → Option Int) {d : PyDict} {n : Int}
    (hv : d.lookup "schema_version" = some (.int n)) :
    (JobMessage.ofDict? intOfStr d).isSome = true ↔
      ∀ name ∈ requiredFields, ∃ s, d.lookup name = some (.str s) := by
  have hversion : JobMessage.readVersion intOfStr d = some n := by
    simp only [JobMessage.readVersion, hv, asInt]
  simp only [requiredFields, List.forall_mem_cons, readStr_iff, JobMessage.ofDict?, hversion,
    Option.bind_eq_bind, Option.bind_some, Option.isSome_bind, Option.any_eq_true, Option.pure_def,
    Option.isSome_some, Option.isSome_iff_exists]
  simp

theorem version_of_ofDict? {intOfStr : String → Option Int} {d : PyDict} {n : Int} {m : JobMessage}
    (hv : d.lookup "schema_version" = some (.int n))
    (h : JobMessage.ofDict? intOfStr d = some m) : m.schemaVersion = n := by
  have hversion : JobMessage.readVersion intOfStr d = some n := by
    simp only [JobMessage.readVersion, hv, asInt]
  unfold JobMessage.ofDict? at h
  obtain ⟨v, hread, h⟩ := Option.bind_eq_some_iff.mp h
  iterate 6 obtain ⟨_, -, h⟩ := Option.bind_eq_some_iff.mp h
  obtain rfl := Option.some.inj h
  exact Option.some.inj (hread.symm.trans hversion)

/-- The malformed branch counts a failed job before anything else. -/
theorem not_leftAlone_of_malformed (hnone : msg.job? ext = none) : ¬ LeftAlone w ext msg := by
  intro hleft
  have hstep : Steps (asked ext) (w.handleMessage ext msg) []
      (do w.deleteQuietly msg.receipt; pure .malformed : Py Outcome) [countOk "failed"] := by
    unfold Worker.handleMessage
    rw [hnone]
    exact .step ⟨⟨.empty, {}, .empty, rfl⟩, rfl⟩ (.refl _ _)
  have hno := hleft.untouched _ _ hstep _ List.mem_cons_self
  cases hno

/-- A message that validates, with a newer version, is answered with `RETRY` and nothing else. -/
theorem leftAlone_of_newer {job : JobMessage} (hjob : msg.job? ext = some job)
    (hn : job.schemaVersion > messageSchemaVersion) : LeftAlone w ext msg := by
  have hretry : w.handleMessage ext msg = .ret (.ok .retry) := by
    unfold Worker.handleMessage
    rw [hjob]
    exact if_pos hn
  have honly : ∀ p h, Steps (asked ext) (w.handleMessage ext msg) [] p h →
      p = .ret (.ok .retry) ∧ h = [] := by
    intro p h hs
    rw [hretry] at hs
    cases hs
    exact ⟨rfl, rfl⟩
  refine ⟨⟨[], hretry ▸ .refl _ _⟩, fun res h hs => ?_, fun p h hs v hvm => ?_⟩
  · exact Prog.ret.inj (honly _ _ hs).1
  · rw [(honly _ _ hs).2] at hvm
    cases hvm

/-- The body is a JSON object with a newer schema version, as far as pydantic's parser takes it. -/
def IsNewer (ext : Externals) (body : String) : Prop :=
  ∀ v, ext.parseJson body = some v →
    ∃ d n, v = .dict d ∧ d.lookup "schema_version" = some (.int n) ∧ n > messageSchemaVersion

/-- **A message of a newer schema is left alone exactly when it still validates as one of this
schema**: when the parser takes it and the required fields are there, as strings. -/
theorem newer_version_leftAlone (w : Worker) (ext : Externals) (msg : RawMessage)
    (hnewer : IsNewer ext (msg.body.getD "")) :
    LeftAlone w ext msg ↔ ∃ d, ext.parseJson (msg.body.getD "") = some (.dict d) ∧
      ∀ name ∈ requiredFields, ∃ s, d.lookup name = some (.str s) := by
  cases hparse : ext.parseJson (msg.body.getD "") with
  | none =>
    have hjob : msg.job? ext = none := by rw [RawMessage.job?, JobMessage.ofJson?, hparse]
    exact iff_of_false (not_leftAlone_of_malformed hjob) fun ⟨_, h, _⟩ => nomatch h
  | some v =>
    obtain ⟨d, n, rfl, hv, hn⟩ := hnewer v hparse
    have hjob : msg.job? ext = JobMessage.ofDict? ext.intOfStr d := by
      rw [RawMessage.job?, JobMessage.ofJson?, hparse]
    have hvalid := ofDict?_isSome ext.intOfStr hv
    have hfields : (∃ d', some (PyVal.dict d) = some (.dict d') ∧
        ∀ name ∈ requiredFields, ∃ s, d'.lookup name = some (.str s)) ↔
        (JobMessage.ofDict? ext.intOfStr d).isSome = true := by
      rw [hvalid]
      constructor
      · rintro ⟨d', hd, hall⟩
        cases hd
        exact hall
      · exact fun hall => ⟨d, rfl, hall⟩
    rw [hfields]
    constructor
    · intro hleft
      by_contra hnone
      rw [← hjob, Bool.not_eq_true, Option.isSome_eq_false_iff, Option.isNone_iff_eq_none] at hnone
      exact not_leftAlone_of_malformed hnone hleft
    · intro hsome
      obtain ⟨job, hm⟩ := Option.isSome_iff_exists.mp hsome
      exact leftAlone_of_newer (hjob.trans hm) (version_of_ofDict? hv hm ▸ hn)

/-! ## The redelivery of a finished job -/

/-- Whether a request writes to the stores or counts a processed job, other than by deleting. -/
def Request.rewrites : Request → Bool
  | .putObject _ _ _ _ => true
  | .putItem _ => true
  | .updateItem _ _ => true
  | .sendMessage _ _ => true
  | .metric (.jobsProcessed _) => true
  | _ => false

/-- However far the handling gets and whatever faults it meets, the stores stay as they are but for
the message, which it may delete, and nothing is counted. -/
def Absorbed (w : Worker) (ext : Externals) (msg : RawMessage) (s : Cloud) : Prop :=
  ∀ p s' h, Steps (served ext) (w.handleMessage ext msg) (s, []) p (s', h) →
    s'.table = s.table ∧ s'.objects = s.objects ∧
      (∀ mid, mid ≠ msg.receipt → s'.queue mid = s.queue mid) ∧ ∀ v ∈ h, v.1.rewrites = false

/-- What a request that neither rewrites nor deletes does to the stores: nothing but for the ids
that were drawn. -/
theorem perform_reads {s s' : Cloud} {q : Request} {ch : Choice} {r : q.Resp} {receipt : String}
    (h : s.perform ext q ch = some (r, s')) (hq : q.rewrites = false)
    (hdel : ∀ mid, q = .deleteMessage mid → mid = receipt) :
    s'.table = s.table ∧ s'.objects = s.objects ∧
      ∀ mid, mid ≠ receipt → s'.queue mid = s.queue mid := by
  obtain rfl | he := Cloud.perform_effect h
  · exact ⟨rfl, rfl, fun _ _ => rfl⟩
  · cases he with
    | delete =>
      obtain rfl := hdel _ rfl
      exact ⟨rfl, rfl, fun mid hne => by rw [Cloud.setMessage_queue, if_neg hne]⟩
    | draw => exact ⟨rfl, rfl, fun _ _ => rfl⟩
    | object => cases hq
    | put => cases hq
    | update => cases hq
    | send => cases hq

/-- With nothing rewritten before, a worker whose lookups show a `COMPLETE` record rewrites
nothing. -/
theorem rewrites_nothing {job : JobMessage} {record : JobRecord} {it : Option Item} {q : Request}
    (hjob : msg.job? ext = some job)
    (hd : JobTable.decodeItem ext.intOfStr it = .ok (some record))
    (hr : record.status = .complete) (hread : ∀ it', readOk job.jobId it' ∈ hist → it' = it)
    (hold : ∀ v ∈ hist, v.1.rewrites = false) (hmay : WorkerMay w ext msg (journal hist) q) :
    q.rewrites = false := by
  have hlook : ¬ Looked ext job (journal hist) := by
    rintro ⟨it', r', hv, hd', hr'⟩
    rw [hread it' (mem_of_mem_journal hv)] at hd'
    obtain rfl := Option.some.inj (Except.ok.inj (hd.symm.trans hd'))
    exact hr' hr
  have hupdate : ∀ {u ans}, (⟨.updateItem job.jobId u, ans⟩ : Ev) ∉ journal hist := fun hv => by
    cases hold _ (mem_of_mem_journal hv)
  cases q with
  | updateItem j u =>
    obtain ⟨job', hjob', -, hl, -⟩ := hmay
    obtain rfl := Option.some.inj (hjob.symm.trans hjob')
    exact absurd hl hlook
  | putObject b k body ct =>
    obtain ⟨job', _, _, hjob', ⟨now, hwon⟩, -⟩ := hmay
    obtain rfl := Option.some.inj (hjob.symm.trans hjob')
    exact absurd hwon hupdate
  | metric m =>
    cases m with
    | jobsProcessed status =>
      obtain ⟨hdue, -⟩ := hmay
      cases hdue with
      | malformed hnone => rw [hnone] at hjob; cases hjob
      | missing hjob' hv hd' =>
        obtain rfl := Option.some.inj (hjob.symm.trans hjob')
        rw [hread _ (mem_of_mem_journal hv), hd] at hd'
        cases hd'
      | failed hjob' hv =>
        obtain rfl := Option.some.inj (hjob.symm.trans hjob')
        exact absurd hv hupdate
      | complete hjob' hv =>
        obtain rfl := Option.some.inj (hjob.symm.trans hjob')
        exact absurd hv hupdate
    | _ => rfl
  | putItem d => exact hmay.elim
  | sendMessage body attributes => exact hmay.elim
  | _ => rfl

theorem complete_absorbed {s : Cloud} {job : JobMessage} {record : JobRecord}
    (hjob : msg.job? ext = some job)
    (hd : JobTable.decodeItem ext.intOfStr (s.table job.jobId) = .ok (some record))
    (hr : record.status = .complete) : Absorbed w ext msg s := by
  intro p s' h hs
  have hwp := wp_logged (I := ⟨fun _ _ => True, fun s q r s' => ∃ ch, s.perform ext q ch =
    some (r, s')⟩) (fun s q r s' ⟨ch, he⟩ => ⟨s, ch, s', he⟩) (handling_keeps w ext msg) s
  have hinv := (hs.congr (J := Interface.logged _ fun h q => WorkerMay w ext msg (journal h) q)
    fun _ _ _ _ he => he).invariant (J := fun x => (x.1.table = s.table ∧
      x.1.objects = s.objects ∧ ∀ mid, mid ≠ msg.receipt → x.1.queue mid = s.queue mid) ∧
      (∀ v ∈ x.2, v.1.rewrites = false) ∧
      ∀ it', readOk job.jobId it' ∈ x.2 → it' = s.table job.jobId) hwp ?_
      ⟨⟨rfl, rfl, fun _ _ => rfl⟩, fun _ h => absurd h List.not_mem_nil,
        fun _ h => absurd h List.not_mem_nil⟩
  · exact ⟨hinv.1.1, hinv.1.2.1, hinv.1.2.2, hinv.2.1⟩
  · rintro ⟨s₁, h₁⟩ q r ⟨s₂, h₂⟩ hmay ⟨⟨ch, hp⟩, rfl⟩ ⟨⟨htable, hobjects, hqueue⟩, hold, hread⟩
    dsimp only at *
    have hq := rewrites_nothing hjob hd hr hread hold hmay
    have hdel : ∀ mid, q = .deleteMessage mid → mid = msg.receipt := by
      rintro mid rfl
      exact hmay.1
    obtain ⟨htable', hobjects', hqueue'⟩ := perform_reads hp hq hdel
    refine ⟨⟨htable'.trans htable, hobjects'.trans hobjects,
      fun mid hne => (hqueue' mid hne).trans (hqueue mid hne)⟩,
      List.forall_mem_cons.mpr ⟨hq, hold⟩, fun it' hv => ?_⟩
    obtain hev | hv := List.mem_cons.mp hv
    · cases hev
      obtain ⟨hit, -⟩ := Prod.mk.inj (Option.some.inj (Cloud.perform_ok hp))
      rw [← Except.ok.inj hit, htable]
    · exact hread it' hv

theorem served_ask {s s' : Cloud} {q : Request} {v : q.Val} (h : History) {ch : Choice}
    (hp : s.perform ext q ch = some (.ok v, s')) :
    Steps (served ext) (ask q) (s, h) (.ret (.ok v)) (s', ⟨q, .ok v⟩ :: h) :=
  .step ⟨⟨ch, hp⟩, rfl⟩ (.refl _ _)

theorem served_plain (s : Cloud) (q : Request) (v : q.Val) (h : History)
    (hp : s.perform ext q {} = some (.ok v, s)) :
    Steps (served ext) (ask q) (s, h) (.ret (.ok v)) (s, ⟨q, .ok v⟩ :: h) := served_ask h hp

theorem served_retry {s s' : Cloud} {q : Request} {v : q.Val} {h : History} {policy : RetryPolicy}
    (operation : String) (hpos : policy.attempts ≠ 0)
    (hs : Steps (served ext) (ask q) (s, h) (.ret (.ok v)) (s', ⟨q, .ok v⟩ :: h)) :
    Steps (served ext) (callWithRetry policy operation noSwallow (ask q)) (s, h) (.ret (.ok v))
      (s', ⟨q, .ok v⟩ :: h) := by
  obtain ⟨n, hn⟩ := Nat.exists_eq_succ_of_ne_zero hpos
  rw [callWithRetry, hn]
  exact hs.bind _

/-- A handling that finds a record that is not `COMPLETE` may get as far as `mark_processing`. -/
theorem gets_markProcessing {config : Config} {s : Cloud} {job : JobMessage}
    {record : JobRecord} {it : Item} (hjob : msg.job? ext = some job)
    (hversion : job.schemaVersion ≤ messageSchemaVersion) (hbucket : job.bucket = config.s3Bucket)
    (hd : JobTable.decodeItem ext.intOfStr (s.table job.jobId) = .ok (some record))
    (hr : record.status ≠ .complete)
    (ha : (processingUpdate "").apply job.jobId (s.table job.jobId) = .ok it) :
    ∃ h, Fallible.Gets (served ext) ((Worker.build config).handleMessage ext msg) (s, [])
      (s.setItem job.jobId it, updateOk job.jobId (processingUpdate "") :: h) := by
  have hpos : defaultPolicy.attempts ≠ 0 := by decide
  have hbind := served_plain s (.bindJobContext job.jobId) () [] (rfl : s.perform ext _ {} = _)
  have hitem := served_retry "dynamodb.get_item" hpos (served_plain s (.getItem job.jobId)
    (s.table job.jobId) [⟨.bindJobContext job.jobId, .ok ()⟩] (rfl : s.perform ext _ {} = _))
  have hnow := served_plain s .utcNow "" [readOk job.jobId (s.table job.jobId),
    ⟨.bindJobContext job.jobId, .ok ()⟩] (rfl : s.perform ext _ {} = _)
  have hserve : s.perform ext (.updateItem job.jobId (processingUpdate "")) {} =
      some (.ok (), s.setItem job.jobId it) := by
    simp only [Cloud.perform, Cloud.serve, ha]
  have hwin := served_retry "dynamodb.update_item" hpos (served_ask [⟨.utcNow, .ok ""⟩,
    readOk job.jobId (s.table job.jobId), ⟨.bindJobContext job.jobId, .ok ()⟩] hserve)
  have hfound : Steps (served ext) ((Worker.build config).clients.table.getJob ext.intOfStr
      job.jobId) (s, [⟨.bindJobContext job.jobId, .ok ()⟩]) (.ret (.ok (some record)))
      (s, [readOk job.jobId (s.table job.jobId), ⟨.bindJobContext job.jobId, .ok ()⟩]) := by
    refine Fallible.steps_tryElse_ok hitem ?_
    simp only [hd]
    exact .refl _ _
  refine ⟨[⟨.utcNow, .ok ""⟩, readOk job.jobId (s.table job.jobId),
    ⟨.bindJobContext job.jobId, .ok ()⟩], ?_⟩
  rw [Worker.handleMessage_of_job hjob hversion]
  refine Fallible.gets_tryElse_ok hbind (Fallible.Gets.tryElse (Fallible.gets_tryElse_ok hfound ?_)
    _ _)
  simp only [hr, if_false]
  refine (congrArg (fun m => Fallible.Gets (served ext) m _ _)
    (if_neg (not_not.mpr hbucket))).mpr ?_
  exact Fallible.Gets.tryElse (Fallible.Gets.tryElse (Fallible.gets_tryElse_ok hnow ⟨_, hwin⟩) _ _)
    _ _

/-- A record that is not `COMPLETE` can be moved to `PROCESSING`. -/
theorem not_absorbed {config : Config} {s : Cloud} {job : JobMessage} {record : JobRecord}
    (hjob : msg.job? ext = some job) (hversion : job.schemaVersion ≤ messageSchemaVersion)
    (hbucket : job.bucket = config.s3Bucket)
    (hd : JobTable.decodeItem ext.intOfStr (s.table job.jobId) = .ok (some record))
    (hr : record.status.isTerminal = true) (hne : record.status ≠ .complete) :
    ¬ Absorbed (.build config) ext msg s := by
  intro habs
  obtain ⟨it, hit, hdec⟩ := decodes_of_decodeItem hd
  have hid : (it.get "job_id").isSome = true := by rw [hdec.jobId, Option.isSome_some]
  obtain ⟨it', ha⟩ := processing_applies "" job.jobId hid hdec.itemStatus hne
  rw [← hit] at ha
  obtain ⟨h, p, hs⟩ := gets_markProcessing hjob hversion hbucket hd hne ha
  have htable := congrFun (habs p _ _ hs).1 job.jobId
  rw [Cloud.setItem_table, if_pos rfl, hit] at htable
  obtain rfl := Option.some.inj htable
  have hstatus := (Update.Known.processing "").status ha
  rw [hdec.itemStatus, target_processingUpdate] at hstatus
  rw [Option.some.inj hstatus] at hr
  cases hr

/-- **The redelivery of a finished job is absorbed exactly when the job is `COMPLETE`.** -/
theorem redelivery_absorbed {config : Config} {s : Cloud} {job : JobMessage} {record : JobRecord}
    (hjob : msg.job? ext = some job) (hversion : job.schemaVersion ≤ messageSchemaVersion)
    (hbucket : job.bucket = config.s3Bucket)
    (hd : JobTable.decodeItem ext.intOfStr (s.table job.jobId) = .ok (some record))
    (hr : record.status.isTerminal = true) :
    Absorbed (.build config) ext msg s ↔ record.status = .complete := by
  refine ⟨fun habs => ?_, complete_absorbed hjob hd⟩
  by_contra hne
  exact not_absorbed hjob hversion hbucket hd hr hne habs

end Runs

section Scene
open Surroundings

/-- The fields of a message of a newer schema, which may have renamed one of them. -/
def newerFields (bucketField : String) : FlatJson.Members :=
  [("schema_version", .int 2), ("job_id", .str jobId), (bucketField, .str config.s3Bucket),
    ("input_key", .str message.inputKey), ("content_type", .str "image/gif"),
    ("filename", .str "dot.gif"), ("submitted_at", .str clock)]

def newerDelivery (bucketField : String) : RawMessage :=
  ⟨some messageId, some (FlatJson.write (newerFields bucketField))⟩

theorem parse_newerDelivery (bucketField : String) :
    small.parseJson ((newerDelivery bucketField).body.getD "") =
      some (.dict ((newerFields bucketField).map fun kv => (kv.1, ofScalar kv.2))) := by
  have hparse : small.parseJson = parseFlat := rfl
  have hbody : (newerDelivery bucketField).body.getD "" = FlatJson.write (newerFields bucketField) :=
    rfl
  rw [hparse, hbody, parseFlat, FlatJson.read_write, Option.map_some]

theorem newer_version_deleted : ∃ (msg : RawMessage) (d : PyDict) (n : Int),
    small.parseJson (msg.body.getD "") = some (.dict d) ∧
    d.lookup "schema_version" = some (.int n) ∧ n > messageSchemaVersion ∧
    ¬ LeftAlone (.build config) small msg := by
  refine ⟨newerDelivery "s3_bucket", _, 2, parse_newerDelivery _, rfl, by decide,
    not_leftAlone_of_malformed ?_⟩
  rw [RawMessage.job?, JobMessage.ofJson?, parse_newerDelivery]
  rfl

theorem isNewer_newerDelivery (bucketField : String) :
    IsNewer small ((newerDelivery bucketField).body.getD "") := by
  intro v hv
  rw [parse_newerDelivery] at hv
  obtain rfl := Option.some.inj hv
  exact ⟨_, 2, rfl, rfl, by decide⟩

theorem newer_version_leftAlone_bucket : LeftAlone (.build config) small (newerDelivery "bucket") :=
  (newer_version_leftAlone (.build config) small _ (isNewer_newerDelivery "bucket")).mpr
    ⟨_, parse_newerDelivery "bucket", fun name hname => by
      simp only [requiredFields, List.mem_cons, List.not_mem_nil, or_false] at hname
      rcases hname with rfl | rfl | rfl | rfl | rfl | rfl <;> exact ⟨_, rfl⟩⟩

/-- The stores hold a record of the job with the status `st`. -/
def holdingRecord (st : JobStatus) : Cloud := holding (itemOf (record st))

theorem decodeItem_holdingRecord (st : JobStatus) :
    ∃ r, JobTable.decodeItem small.intOfStr ((holdingRecord st).table jobId) = .ok (some r) ∧
      r.status = st := by
  cases st <;> exact ⟨_, rfl, rfl⟩

theorem redelivery_not_absorbed : ∃ s r, (record .failed).status.isTerminal = true ∧
    JobTable.decodeItem small.intOfStr (Cloud.table s message.jobId) = .ok (some r) ∧
    JobRecord.status r = .failed ∧ ¬ Absorbed (.build config) small delivery s := by
  obtain ⟨r, hr, hst⟩ := decodeItem_holdingRecord .failed
  refine ⟨holdingRecord .failed, r, rfl, hr, hst, not_absorbed job_delivery (le_refl _) rfl hr ?_ ?_⟩
  · rw [hst]
    rfl
  · rw [hst]
    decide

theorem redelivery_absorbed_complete :
    Absorbed (.build config) small delivery (holdingRecord .complete) := by
  obtain ⟨r, hr, hst⟩ := decodeItem_holdingRecord .complete
  refine (redelivery_absorbed job_delivery (le_refl _) rfl hr ?_).mpr hst
  rw [hst]
  rfl

/-- One delivery alone on the stores. -/
def solo (ext : Externals) (p : Py Outcome) :
    Machine Unit Request Choice Empty Cloud (Except Exc Outcome) Request.Resp where
  prog _ := p
  canStart _ _ := true
  perform := Cloud.perform ext
  ambient _ m := nomatch m

def isCompleted : Except Exc Outcome → Bool
  | .ok o => o == .completed
  | .error _ => false

theorem eq_of_isCompleted {a : Except Exc Outcome} (h : isCompleted a = true) : a = .ok .completed := by
  cases a with
  | ok o => rw [eq_of_beq (a := o) h]
  | error e => cases h

theorem deleted_last_completed : ∃ hist, ∃ job : JobMessage, ∃ done ms now later earlier,
    Steps (asked small) ((Worker.build config).handleMessage small delivery) []
      (.ret (.ok .completed)) hist ∧
    hist = later ++ deleteOk messageId :: earlier ∧
    updateOk job.jobId (completeUpdate done ms now) ∈ earlier := by
  have hreach : (solo small handleMessageBody).Reach Machine.always
      (Machine.initial (holdingRecord .pending)) ((solo small handleMessageBody).played
        (Machine.initial (holdingRecord .pending)) (Machine.script () (List.replicate 29 {}))) :=
    Machine.Reach.refl.played _
  have hdone : (Snapshot.result ((solo small handleMessageBody).played
      (Machine.initial (holdingRecord .pending)) (Machine.script () (List.replicate 29 {}))) ()).any
        isCompleted = true := by
    decide +kernel
  obtain ⟨a, ha, hcompleted⟩ := (Option.any_eq_true _ _).mp hdone
  have hsteps : Steps (asked small) handleMessageBody [] (.ret a) _ :=
    (hreach.steps (fun s q ch r s' h => ⟨s, ch, s', h⟩) ()).2 _ (Snapshot.result_eq_some.mp ha)
  rw [eq_of_isCompleted hcompleted, ← handleMessage_delivery] at hsteps
  obtain ⟨job, done, ms, now, later, earlier, -, hhist, hmem⟩ := (deleted_last hsteps).2.2 rfl
  exact ⟨_, job, done, ms, now, later, earlier, hsteps, hhist, hmem⟩

end Scene

end PixelForge
