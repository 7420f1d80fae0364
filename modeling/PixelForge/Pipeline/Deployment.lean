import Mathlib.Data.Nat.Pairing
import PixelForge.Api.ErrorBodies
import PixelForge.Effects.Hosting
import PixelForge.Pipeline.System
import PixelForge.Worker.Process

/-! # The deployment

The processes that are really there: requests to the API, each in a process of its own, and worker
processes, each with its poll loop. They run the handlers around `create_job` and the loop around
`handle_message` whole, over the same stores as `pipeline`.

`deployment_refines`: what they do, the `create_job` calls and deliveries of `pipeline` do.
-/
set_option autoImplicit false

namespace PixelForge
open Effects

/-- What a process is there for. A worker stops after `rounds` iterations of its loop. -/
inductive Task
  | postJobs (contentLength : Option String) (file : UploadFile)
  | getJob (jobId : String)
  | probe
  | work (own : Config) (rounds : Nat)

/-- What a process returns. -/
inductive Answer
  | response (r : Response)
  | report (r : Report)
  | exit (code : Nat)

def answerWith {α : Type} (f : α → Answer) (m : Py α) :
    Prog Request Request.Resp (Except Exc Answer) :=
  Prog.bind m fun r => .ret (r.map f)

/-- The program of a task. -/
def Task.prog (ext : Externals) (config : Config) : Task → Prog Request Request.Resp (Except Exc Answer)
  | .postJobs contentLength file =>
    answerWith .response (Routes.postJobs (.build config) ext contentLength file)
  | .getJob jobId => answerWith .response (Routes.getJob (.build config) ext jobId)
  | .probe => answerWith .report (ReadinessProbe.run ⟨.build config⟩)
  | .work own rounds => answerWith .exit (workerRun ext {} own rounds)

/-- The processes of a deployment whose API has the configuration `config`, over the stores. -/
def deployment (ext : Externals) (config : Config) (fleet : Nat → Task) :
    Machine Nat Request Choice String Cloud (Except Exc Answer) Request.Resp where
  prog n := (fleet n).prog ext config
  canStart _ _ := true
  perform := Cloud.perform ext
  ambient := Cloud.redrive

abbrev Site : Type := Snapshot Nat Request Choice Cloud (Except Exc Answer) Request.Resp
abbrev SiteEntry : Type := Entry Nat Request Choice Cloud Request.Resp

/-! ## What a process asks outside of the pipeline -/

/-- The requests of the readiness probe. -/
inductive Probes (config : Config) : Request → Prop
  | store : Probes config (.headBucket config.s3Bucket)
  | queue : Probes config .getQueueAttributes
  | table : Probes config (.getItem readinessSentinelJobId)
  | wait {q : Request} (hq : q.isWait = true) : Probes config q

/-- What a task asks, `create_job` and `handle_message` apart. -/
inductive Task.Asks (config : Config) : Task → Request → Prop
  | rejection {contentLength : Option String} {file : UploadFile} {result : String} :
      Asks config (.postJobs contentLength file) (.metric (.uploads result))
  | lookup {jobId : String} : Asks config (.getJob jobId) (.getItem jobId)
  | pause {jobId : String} {q : Request} (hq : q.isWait = true) : Asks config (.getJob jobId) q
  | probe {q : Request} (hq : Probes config q) : Asks config .probe q
  | startup {own : Config} {rounds : Nat} {q : Request} (hq : Probes own q) :
      Asks config (.work own rounds) q
  | poll {own : Config} {rounds : Nat} : Asks config (.work own rounds) (.receiveMessage 1 pollWaitSeconds)
  | failedPoll {own : Config} {rounds : Nat} {operation : String} :
      Asks config (.work own rounds) (.metric (.sqsErrors operation))

section Deploying

variable {ext : Externals} {config : Config} {fleet : Nat → Task}

theorem Probes.quiet {q : Request} (h : Probes config q) {s s' : Cloud} {ch : Choice} {r : q.Resp}
    (hp : s.perform ext q ch = some (r, s')) : s' = s := by
  obtain hs | he := Cloud.perform_effect hp
  · exact hs
  · cases h with
    | wait hq => cases he <;> cases hq
    | store => cases he
    | queue => cases he
    | table => cases he

theorem Task.Asks.quiet {task : Task} {q : Request} (h : task.Asks config q) {s s' : Cloud} {ch : Choice}
    {r : q.Resp} (hp : s.perform ext q ch = some (r, s')) : s' = s := by
  obtain hs | he := Cloud.perform_effect hp
  · exact hs
  · cases h with
    | pause hq => cases he <;> cases hq
    | probe hq => exact hq.quiet hp
    | startup hq => exact hq.quiet hp
    | _ => cases he

/-- Which processes of the pipeline there are: an upload for each request, and deliveries to the workers
of the fleet. -/
def crew (fleet : Nat → Task) : Proc → Bool
  | .caller n _ =>
    match fleet n with
    | .postJobs _ _ => true
    | _ => false
  | .worker m own _ =>
    match fleet m.unpair.1 with
    | .work own' _ => own == own'
    | _ => false

/-- The process `n` runs `create_job` as the caller `n`, and its `k`th delivery as the worker
`Nat.pair n k`. -/
def owner : Proc → Nat × Nat
  | .caller n _ => (n, 0)
  | .worker m _ _ => m.unpair

def lodging (ext : Externals) (config : Config) (fleet : Nat → Task) :
    Lodging Nat (pipeline ext config (crew fleet)) where
  owner := owner
  own n q := (fleet n).Asks config q
  quiet h hp := h.quiet hp

/-! ## The requests to the API -/

/-- The process ran one `create_job`, on what it read of the file, and `record` came of it. -/
def Created (config : Config) (n : Nat) (file : UploadFile) (gs : List (Proc × Except Exc Reply))
    (record : JobRecord) : Prop :=
  ∃ u, gs = [(.caller n u, .ok (.record record))] ∧
    Routes.readLimited file config.maxUploadBytes = pure u.data ∧ u.filename = file.filename ∧
    u.contentType = file.contentType

/-- What has happened when the upload handler answers: a job id is the one of a new record. -/
def Posted (config : Config) (n : Nat) (file : UploadFile) (gs : List (Proc × Except Exc Reply))
    (r : Except Exc Response) : Prop :=
  ∀ resp j, r = .ok resp → resp.content.lookup "job_id" = some (.str j) →
    resp.status = 202 ∧ ∃ record, Created config n file gs record ∧ record.jobId = j

section Posting

variable {n : Nat} {contentLength : Option String} {file : UploadFile}
  {gs : List (Proc × Except Exc Reply)} {s : Cloud}

theorem checkDeclaredLength_pure (maxBytes : Int) (declared : Option String) :
    ∃ r, Routes.checkDeclaredLength maxBytes declared = .ret r := by
  unfold Routes.checkDeclaredLength
  split
  · exact ⟨_, rfl⟩
  · split
    · split
      · exact ⟨_, rfl⟩
      · split <;> exact ⟨_, rfl⟩
    · exact ⟨_, rfl⟩

theorem readLoop_pure (maxBytes : Int) (chunks : List Bytes) (total : Nat)
    (reads : List (Except Exc Bytes)) : ∃ r, Routes.readLoop maxBytes chunks total reads = .ret r := by
  induction reads generalizing chunks total with
  | nil => exact ⟨_, rfl⟩
  | cons read reads ih =>
    cases read with
    | error e => exact ⟨_, rfl⟩
    | ok chunk =>
      unfold Routes.readLoop
      split
      · exact ⟨_, rfl⟩
      · split
        · exact ⟨_, rfl⟩
        · exact ih _ _

/-- A request of its own, and what follows it. -/
theorem hosts_ask {α : Type} {q : Request} {f : q.Resp → Prog Request Request.Resp α}
    {Q : List (Proc × Except Exc Reply) → α → Cloud → Prop} (hq : (fleet n).Asks config q)
    (hf : ∀ r s, (lodging ext config fleet).Hosts n Q gs (f r) s) :
    (lodging ext config fleet).Hosts n Q gs (Prog.bind (ask q) f) s :=
  .alone hq fun _ r t _ => hf r t

theorem hosts_handleException (hn : fleet n = .postJobs contentLength file) (e : Exc) :
    (lodging ext config fleet).Hosts n (fun gs r _ => Posted config n file gs r) gs
      (Routes.handleException e) s := by
  have hbody : ∀ status detail code, Posted config n file gs
      (.ok ⟨status, Routes.errorBody detail code⟩) := by
    intro status detail code resp j hr hj
    obtain rfl := Except.ok.inj hr
    cases hj
  have hraise : ∀ e, Posted config n file gs (.error e) := fun e resp j hr => by cases hr
  cases e with
  | uploadRejected detail status code metricResult =>
    refine hosts_ask (hn ▸ .rejection) fun r s => ?_
    cases r with
    | ok x => exact .done (hbody status detail code)
    | error e => exact .done (hraise e)
  | enqueueFailed text => exact .done (hbody _ _ _)
  | transientDependency text operation => exact .done (hbody _ _ _)
  | _ => exact .done (hraise _)

/-- Up to the handlers: the record that is returned is the one `create_job` returned. -/
theorem hosts_accept (hn : fleet n = .postJobs contentLength file) :
    (lodging ext config fleet).Hosts n
      (fun gs r _ => ∀ record, r = .ok record → Created config n file gs record) []
      (Routes.accept (.build config) ext file) s := by
  have hraise : ∀ gs e record, (.error e : Except Exc JobRecord) = .ok record →
      Created config n file gs record := fun gs e record hr => by cases hr
  have hcount : ∀ (gs : List (Proc × Except Exc Reply)) (e : Exc) (s : Cloud),
      (lodging ext config fleet).Hosts n
        (fun gs r _ => ∀ record, r = .ok record → Created config n file gs record) gs
        (do
          ask (.metric (.uploads "error"))
          Fallible.raise e : Py JobRecord) s := fun gs e s =>
    hosts_ask (hn ▸ .rejection) fun r s => by
      cases r with
      | ok x => exact .done (hraise gs e)
      | error e => exact .done (hraise gs e)
  refine Lodging.Hosts.tryElse
    (R := fun gs r _ => ∀ record, r = .ok record → Created config n file gs record) ?_
    (fun gs e s _ => ?_) fun gs record s hrecord => .done hrecord
  · obtain ⟨read, hread⟩ := readLoop_pure config.maxUploadBytes [] 0 file.reads
    change (lodging ext config fleet).Hosts n _ []
      (Fallible.tryElse (Routes.readLoop config.maxUploadBytes [] 0 file.reads) Fallible.raise _) s
    rw [hread]
    cases read with
    | error e => exact .done (hraise [] e)
    | ok data =>
      refine .guest (i := .caller n ⟨data, file.filename, file.contentType⟩)
        (w := fun r => r.map .record) rfl rfl ?_ fun r t record hr => ?_
      · exact Bool.and_eq_true_iff.mpr ⟨by simp only [crew, hn], rfl⟩
      · subst hr
        exact ⟨_, rfl, hread, rfl, rfl⟩
  · cases e with
    | uploadRejected detail status code metricResult => exact .done (hraise gs _)
    | _ => exact hcount gs _ s

theorem hosts_postJobs (hn : fleet n = .postJobs contentLength file) :
    (lodging ext config fleet).Hosts n (fun gs r _ => Posted config n file gs r) []
      (Routes.postJobs (.build config) ext contentLength file) s := by
  refine Lodging.Hosts.tryElse (R := fun gs r _ => Posted config n file gs r) ?_
    (fun gs e s _ => hosts_handleException hn e) fun gs resp s hresp => .done hresp
  obtain ⟨checked, hchecked⟩ := checkDeclaredLength_pure config.maxUploadBytes contentLength
  change (lodging ext config fleet).Hosts n _ []
    (Fallible.tryElse (Routes.checkDeclaredLength config.maxUploadBytes contentLength) Fallible.raise _) s
  rw [hchecked]
  cases checked with
  | error e => exact .done nofun
  | ok x =>
    change (lodging ext config fleet).Hosts n _ []
      (Fallible.tryElse (Routes.accept (.build config) ext file) Fallible.raise _) s
    refine Lodging.Hosts.tryElse (hosts_accept hn) (fun gs e s _ => .done nofun)
      fun gs record s hrecord => .done fun resp j hr hj => ?_
    obtain rfl := Except.ok.inj hr
    exact ⟨rfl, record, hrecord record rfl, PyVal.str.inj (Option.some.inj hj)⟩

end Posting

/-! ## What asks nothing of the pipeline -/

section Own

variable {n : Nat} {gs : List (Proc × Except Exc Reply)} {s : Cloud}

/-- What a process sees of the stores when it asks for itself. -/
abbrev visited (ext : Externals) (config : Config) (fleet : Nat → Task) (n : Nat) :
    Interface Request Request.Resp Cloud := (lodging ext config fleet).visits n

theorem answers_of_visit {q : Request} {r : q.Resp} {s' : Cloud}
    (h : (visited ext config fleet n).exec s q r s') : Cloud.Answers ext q r := by
  obtain ⟨ch, hp⟩ := h
  exact ⟨s', ch, s', hp⟩

theorem keeps_own {q : Request} (hq : (fleet n).Asks config q) :
    Fallible.Keeps (visited ext config fleet n) (fun _ => True) (ask q) := fun s _ =>
  (wp_ask q _ _ s).mpr ⟨hq, fun r _ _ => by cases r <;> trivial⟩

theorem keeps_ownRetry {q : Request} (hq : (fleet n).Asks config q)
    (hwait : ∀ q : Request, q.isWait = true → (fleet n).Asks config q) (policy : RetryPolicy)
    (operation : String) (swallow : String → Option q.Val) :
    Fallible.Keeps (visited ext config fleet n) (fun _ => True)
      (callWithRetry policy operation swallow (ask q)) :=
  keeps_callWithRetry (keeps_own hq) (fun q' hq' => keeps_own (hwait q' hq')) policy operation swallow

/-- A probe with the configuration `own`, by a process that may ask what the probe asks. -/
theorem keeps_probe {own : Config} (hown : ∀ q, Probes own q → (fleet n).Asks config q) :
    Fallible.Keeps (visited ext config fleet n) (fun _ => True) (ReadinessProbe.run ⟨.build own⟩) := by
  have hwait : ∀ q : Request, q.isWait = true → (fleet n).Asks config q := fun q hq => hown q (.wait hq)
  refine keeps_runLoop (List.forall_mem_cons.mpr ⟨?_, List.forall_mem_cons.mpr ⟨?_,
    List.forall_mem_singleton.mpr ?_⟩⟩) _
  · exact keeps_ownRetry (hown _ .store) hwait _ _ _
  · exact keeps_ownRetry (hown _ .queue) hwait _ _ _
  · exact (keeps_ownRetry (hown _ .table) hwait _ _ _).bind fun _ => .pure _

theorem keeps_wait {own : Config} (hown : ∀ q, Probes own q → (fleet n).Asks config q) :
    Fallible.Keeps (visited ext config fleet n) (fun _ => True) (waitForDependencies (.build own)) :=
  keeps_waitForDependencies (keeps_probe hown) (fun _ => keeps_own (hown _ (.wait rfl))) _ _ _

/-- A lookup raises nothing that is counted as a rejection. -/
theorem wp_getJob_own {jobId : String} (hn : fleet n = .getJob jobId) :
    Fallible.wp (visited ext config fleet n) ((JobService.build config).getJob ext jobId)
      (fun _ _ => True) (fun e _ => e.isOwn = false ∨ e.isGiveUp = true) s := by
  have hlookup : (fleet n).Asks config (.getItem jobId) := hn ▸ .lookup
  have hpause : ∀ q : Request, q.isWait = true → (fleet n).Asks config q := fun q hq => hn ▸ .pause hq
  unfold JobService.getJob
  split
  · refine (Fallible.wp_bind _ _ _).mpr (Fallible.wp_mono (wp_callWithRetry (q := .getItem jobId)
      (J := fun _ => True) (Q := fun _ _ => True) _ _ (fun _ _ => hlookup) (fun s q _ hq =>
      ⟨hpause q hq, ?_⟩) (fun _ _ _ _ _ => trivial) (fun _ _ _ _ _ _ => trivial)
      (fun s e s' _ he _ => ?_) (fun _ _ _ he => .inr he) trivial) (fun item s _ => ?_) fun _ _ h => h)
    · intro r s' hr
      exact ⟨trivial, (answers_of_visit hr).steady (by cases q <;> first | rfl | cases hq)⟩
    · exact .inl ((answers_of_visit he).not_own rfl)
    · split
      · trivial
      · rename_i e he
        rw [JobTable.decodeItem_error he]
        exact .inl rfl
  · trivial

theorem hosts_getJob {jobId : String} (hn : fleet n = .getJob jobId) :
    (lodging ext config fleet).Hosts n (fun _ _ _ => True) gs
      (Routes.getJob (.build config) ext jobId) s := by
  suffices hwp : Fallible.wp (visited ext config fleet n) (Routes.getJob (.build config) ext jobId)
      (fun _ _ => True) (fun _ _ => True) s from .of_wp (Effects.wp_mono hwp fun _ _ _ => trivial)
  refine (Fallible.wp_tryExcept _ _).mpr ((Fallible.wp_bind _ _ _).mpr
    (Fallible.wp_mono (wp_getJob_own hn) (fun record s _ => ?_) fun e s he => ?_))
  · cases record <;> trivial
  · cases e with
    | uploadRejected detail status code metricResult => obtain he | he := he <;> cases he
    | _ => trivial

/-! ## The worker processes -/

/-- A poll returns at most one message, and the queue offers it then. -/
theorem offers_of_receive {s s' : Cloud} {ch : Choice} {ms : List RawMessage}
    (h : s.perform ext (.receiveMessage 1 pollWaitSeconds) ch = some (.ok ms, s')) :
    ms = [] ∨ ∃ msg, ms = [msg] ∧ s'.offers msg = true := by
  have hserve := Cloud.perform_ok h
  simp only [Cloud.serve] at hserve
  split at hserve
  · next m hm =>
    split at hserve
    · next hplace =>
      obtain ⟨hr, rfl⟩ := Prod.mk.inj (Option.some.inj hserve)
      refine .inr ⟨_, (Except.ok.inj hr).symm, ?_⟩
      simp [Cloud.offers, hm, hplace]
    · exact .inl (Except.ok.inj (Prod.mk.inj (Option.some.inj hserve)).1).symm
  · exact .inl (Except.ok.inj (Prod.mk.inj (Option.some.inj hserve)).1).symm

theorem wp_receive_own {own : Config} {rounds : Nat} (hn : fleet n = .work own rounds) :
    Fallible.wp (visited ext config fleet n) ((JobQueue.mk defaultPolicy).receive 1 pollWaitSeconds)
      (fun ms s => ms = [] ∨ ∃ msg, ms = [msg] ∧ s.offers msg = true) (fun _ _ => True) s := by
  have hpause : ∀ q : Request, q.isWait = true → (fleet n).Asks config q := fun q hq =>
    hn ▸ .startup (.wait hq)
  have hpoll : (fleet n).Asks config (.receiveMessage 1 pollWaitSeconds) := hn ▸ .poll
  refine (Fallible.wp_tryExcept _ _).mpr (Fallible.wp_mono (wp_callWithRetry
    (q := .receiveMessage 1 pollWaitSeconds) (J := fun _ => True) (X := fun _ _ => True) _ _
    (fun _ _ => hpoll) (fun s q _ hq => ⟨hpause q hq, fun r s' hr => ⟨trivial,
      (answers_of_visit hr).steady (by cases q <;> first | rfl | cases hq)⟩⟩)
    (fun s ms s' _ hms => ?_) (fun _ _ _ _ _ _ => trivial) (fun _ _ _ _ _ _ => trivial)
    (fun _ _ _ _ => trivial) trivial) (fun _ _ h => h) fun e s _ => ?_)
  · obtain ⟨ch, hp⟩ := hms
    exact offers_of_receive hp
  · have hcount : Fallible.Keeps (visited ext config fleet n) (fun _ => True)
        (ask (.metric (.sqsErrors (operationLabel "sqs.receive_message")))) :=
      keeps_own (hn ▸ .failedPoll)
    exact (Fallible.wp_bind _ _ _).mpr
      (Fallible.wp_mono (hcount s trivial) (fun _ _ _ => trivial) fun _ _ _ => trivial)

/-- A pause of a worker, and what follows it. -/
theorem hosts_sleep {own : Config} {rounds : Nat} (hn : fleet n = .work own rounds) {α : Type}
    {m : Py α} {seconds : Rat} {Q : List (Proc × Except Exc Reply) → Except Exc α → Cloud → Prop}
    (hm : ∀ s, (lodging ext config fleet).Hosts n Q gs m s)
    (hraise : ∀ e s, Q gs (.error e) s) :
    (lodging ext config fleet).Hosts n Q gs (do
      ask (.sleep seconds)
      m : Py α) s := by
  have hsleep : (fleet n).Asks config (.sleep seconds) := hn ▸ .startup (.wait rfl)
  refine hosts_ask hsleep fun r s => ?_
  cases r with
  | ok x => exact hm s
  | error e => exact .done (hraise e s)

theorem hosts_runOnce {own : Config} {rounds : Nat} (hn : fleet n = .work own rounds) :
    (lodging ext config fleet).Hosts n (fun _ _ _ => True) gs ((Worker.build own).runOnce ext) s := by
  refine Lodging.Hosts.tryElse (R := fun gs' r s => gs' = gs ∧ ∀ ms, r = .ok ms →
    ms = [] ∨ ∃ msg, ms = [msg] ∧ s.offers msg = true) ?_ ?_ ?_
  · refine .of_wp (Effects.wp_mono (wp_receive_own hn) fun r s hr => ⟨rfl, fun ms hms => ?_⟩)
    subst hms
    exact hr
  · intro gs' e s _
    split
    · exact hosts_sleep hn (fun s => .done trivial) fun _ _ => trivial
    · exact .done trivial
  · rintro gs' ms s ⟨rfl, hms⟩
    obtain rfl | ⟨msg, rfl, hoffers⟩ := hms ms rfl
    · exact .done trivial
    · refine Lodging.Hosts.tryElse (R := fun _ _ _ => True) ?_ (fun _ _ _ _ => .done trivial)
        fun _ _ _ _ => .done trivial
      refine Lodging.Hosts.tryElse (R := fun _ _ _ => True) ?_ (fun _ _ _ _ => .done trivial)
        fun _ _ _ _ => .done trivial
      refine .guest (i := .worker (Nat.pair n gs'.length) own msg) (w := fun r => r.map .outcome) ?_ rfl
        ?_ fun _ _ => trivial
      · exact Nat.unpair_pair n gs'.length
      · refine Bool.and_eq_true_iff.mpr ⟨?_, hoffers⟩
        simp only [crew, Nat.unpair_pair, hn, beq_self_eq_true]

theorem hosts_run {own : Config} {rounds : Nat} (hn : fleet n = .work own rounds) (left : Nat) :
    (lodging ext config fleet).Hosts n (fun _ _ _ => True) gs ((Worker.build own).run ext left) s := by
  induction left generalizing gs s with
  | zero => exact .done trivial
  | succ left ih =>
    exact Lodging.Hosts.tryElse (R := fun _ _ _ => True) (hosts_runOnce hn)
      (fun _ _ _ _ => hosts_sleep hn (fun s => ih) fun _ _ => trivial) fun _ _ _ _ => ih

theorem hosts_workerRun {own : Config} {rounds : Nat} (hn : fleet n = .work own rounds) :
    (lodging ext config fleet).Hosts n (fun _ _ _ => True) gs (workerRun ext {} own rounds) s := by
  have hown : ∀ q, Probes own q → (fleet n).Asks config q := fun q hq => hn ▸ .startup hq
  rw [workerRun_of_started rfl]
  refine Lodging.Hosts.tryElse (R := fun _ _ _ => True) ?_ (fun gs e s _ => ?_) fun gs x s _ => ?_
  · exact .of_wp (Effects.wp_mono (keeps_wait hown s trivial) fun _ _ _ => trivial)
  · cases e <;> exact .done trivial
  · exact Lodging.Hosts.tryElse (R := fun _ _ _ => True) (hosts_run hn rounds)
      (fun _ _ _ _ => .done trivial) fun _ _ _ _ => .done trivial

end Own

/-! ## The refinement -/

/-- What has happened when a process has returned. -/
def Returned (config : Config) (fleet : Nat → Task) (n : Nat) (gs : List (Proc × Except Exc Reply))
    (b : Except Exc Answer) : Prop :=
  ∀ contentLength file resp j, fleet n = .postJobs contentLength file → b = .ok (.response resp) →
    resp.content.lookup "job_id" = some (.str j) →
    resp.status = 202 ∧ ∃ record, Created config n file gs record ∧ record.jobId = j

theorem hosts_task (n : Nat) (s : Cloud) :
    (lodging ext config fleet).Hosts n (fun gs b _ => Returned config fleet n gs b) []
      ((deployment ext config fleet).prog n) s := by
  change (lodging ext config fleet).Hosts n _ [] ((fleet n).prog ext config) s
  cases hn : fleet n with
  | postJobs contentLength file =>
    refine (hosts_postJobs hn).bind fun gs r s hr => .done ?_
    intro contentLength' file' resp j hn' hb hj
    obtain ⟨-, rfl⟩ := Task.postJobs.inj (hn.symm.trans hn')
    cases r with
    | ok resp' =>
      obtain rfl := Answer.response.inj (Except.ok.inj hb)
      exact hr resp' j rfl hj
    | error e => cases hb
  | getJob jobId =>
    refine (hosts_getJob hn).bind fun gs r s _ => .done ?_
    intro _ _ _ _ hn'
    cases hn.symm.trans hn'
  | probe =>
    have hprobe : Fallible.Keeps (visited ext config fleet n) (fun _ => True)
        (ReadinessProbe.run ⟨.build config⟩) := keeps_probe fun q hq => hn ▸ .probe hq
    refine Lodging.Hosts.bind (R := fun _ _ _ => True)
      (.of_wp (Effects.wp_mono (hprobe s trivial) fun _ _ _ => trivial)) fun gs r s _ => .done ?_
    intro _ _ _ _ hn'
    cases hn.symm.trans hn'
  | work own rounds =>
    refine (hosts_workerRun hn).bind fun gs r s _ => .done ?_
    intro _ _ _ _ hn'
    cases hn.symm.trans hn'

def hosting (ext : Externals) (config : Config) (fleet : Nat → Task) :
    Hosting (lodging ext config fleet) (deployment ext config fleet) where
  post := Returned config fleet
  perform := rfl
  ambient := rfl
  hosts n s _ := hosts_task n s

/-- `c` is what the `create_job` calls and the deliveries do in `d`. -/
abbrev Within (ext : Externals) (config : Config) (fleet : Nat → Task) (d : Site) (c : Pipe) : Prop :=
  Shadowed (lodging ext config fleet) (Returned config fleet) d c

section Refinement

variable {G : Machine.Guard Nat Request Choice Cloud Request.Resp} {s₀ : Cloud} {d : Site} {c : Pipe}

theorem within_of_reach (h : (deployment ext config fleet).Reach G (Machine.initial s₀) d) :
    ∃ c, (pipeline ext config (crew fleet)).Reach Machine.always (Machine.initial s₀) c ∧
      Within ext config fleet d c := (hosting ext config fleet).shadowed h

/-- Where the upload handler has returned a job id, its `create_job` has returned the record. -/
theorem Within.posted (hs : Within ext config fleet d c) {n : Nat} {contentLength : Option String}
    {file : UploadFile} {resp : Response} {j : String} (hn : fleet n = .postJobs contentLength file)
    (hresp : d.result n = some (.ok (.response resp)))
    (hj : resp.content.lookup "job_id" = some (.str j)) :
    resp.status = 202 ∧ ∃ u record, recordOf c (.caller n u) = some record ∧ record.jobId = j ∧
      Routes.readLimited file config.maxUploadBytes = pure u.data ∧ u.filename = file.filename ∧
      u.contentType = file.contentType := by
  cases hs.running n _ (Snapshot.result_eq_some.mp hresp) with
  | returned hpast hb =>
    obtain ⟨hstatus, record, ⟨u, rfl, hu⟩, hid⟩ := hb contentLength file resp j hn rfl hj
    have hthread := hpast.ended _ List.mem_cons_self
    refine ⟨hstatus, u, record, ?_, hid, hu⟩
    simp only [recordOf, Snapshot.result, hthread]

/-- **The deployment refines the pipeline**: every run of the API and worker processes, whatever
crashes and fails in it, is a run of `create_job` calls and deliveries through the same states. Their
log is what the processes asked beside the readiness probes, the polls, the lookups of the API and the
counting of rejections; and a job id that the API has answered is the one of a record that
`create_job` has returned. -/
theorem deployment_refines (h : (deployment ext config fleet).Reach G (Machine.initial s₀) d) :
    ∃ c, (pipeline ext config (crew fleet)).Reach Machine.always (Machine.initial s₀) c ∧
      c.state = d.state ∧ Shadows (lodging ext config fleet) d.log c.log ∧
      ∀ n contentLength file resp j, fleet n = .postJobs contentLength file →
        d.result n = some (.ok (.response resp)) → resp.content.lookup "job_id" = some (.str j) →
        resp.status = 202 ∧ ∃ u record, recordOf c (.caller n u) = some record ∧ record.jobId = j ∧
          Routes.readLimited file config.maxUploadBytes = pure u.data ∧ u.filename = file.filename ∧
          u.contentType = file.contentType := by
  obtain ⟨c, hc, hs⟩ := within_of_reach h
  exact ⟨c, hc, hs.state, hs.log, fun n contentLength file resp j hn hresp hj => hs.posted hn hresp hj⟩

end Refinement

end Deploying

/-! ## A scene

One upload, two workers with one turn of their loops each, and lookups of the job. -/

namespace Surroundings

def smallFleet : Nat → Task
  | 0 => .postJobs none dotFile
  | 1 => .work config 1
  | 3 => .work config 1
  | _ => .getJob jobId

abbrev smallDeployment : Machine Nat Request Choice String Cloud (Except Exc Answer) Request.Resp :=
  deployment small config smallFleet

/-- The upload has been answered. -/
def posted : Site :=
  smallDeployment.played (Machine.initial Cloud.empty)
    (Machine.script 0 [plain, { text := jobId }, plain, plain, plain, plain, plain, plain,
      { text := messageId }, plain, plain])

theorem reach_posted : smallDeployment.Reach Machine.always (Machine.initial Cloud.empty) posted :=
  Machine.Reach.refl.played _

/-- The worker has been given the message. -/
def polled : Site :=
  smallDeployment.played posted (Machine.script 1 [plain, plain, plain, { text := messageId }])

/-- It has completed the job and returned. -/
def worked : Site := smallDeployment.played polled (List.replicate 29 (.act 1 plain))

theorem reach_worked : smallDeployment.Reach Machine.always (Machine.initial Cloud.empty) worked :=
  (reach_posted.played _).played _

theorem posted_result : posted.result 0 = some (.ok (.response
    ⟨202, [("job_id", .str jobId), ("status", .str "PENDING")]⟩)) := rfl

theorem deployment_refines_posted : ∃ c,
    (pipeline small config (crew smallFleet)).Reach Machine.always (Machine.initial Cloud.empty) c ∧
      c.state = posted.state ∧
      ∃ u record, recordOf c (.caller 0 u) = some record ∧ record.jobId = jobId := by
  obtain ⟨c, hc, hstate, -, hposted⟩ := deployment_refines reach_posted
  obtain ⟨-, u, record, hrecord, hid, -⟩ := hposted 0 none dotFile _ jobId rfl posted_result rfl
  exact ⟨c, hc, hstate, u, record, hrecord, hid⟩

end Surroundings

end PixelForge
