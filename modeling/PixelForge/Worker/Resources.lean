import PixelForge.Effects.Brackets
import PixelForge.Pipeline.Deployment

/-! # What a worker has in hand

A worker process takes four things around a job, one inside the other: the log context, a place in the
in-flight gauge, the heartbeat and the workspace. `Request.inOrder` says with which of them in hand each
request is made.

`resources_nest`: every worker process keeps to this in every run, and one that has returned holds none.
-/
set_option autoImplicit false

namespace PixelForge
open Effects

inductive Resource
  | context
  | inflight
  | heartbeat
  | workspace
deriving DecidableEq, Repr

/-- What is in hand while a job is rendered, the latest first. -/
def allInHand : List Resource := [.workspace, .heartbeat, .inflight, .context]

def Request.takes : Request → Option Resource
  | .bindJobContext _ => some .context
  | .metric .jobsInflightInc => some .inflight
  | .startHeartbeat _ _ => some .heartbeat
  | .mkdtemp => some .workspace
  | _ => none

def Request.gives : Request → Option Resource
  | .clearJobContext => some .context
  | .metric .jobsInflightDec => some .inflight
  | .stopHeartbeat => some .heartbeat
  | .rmtree => some .workspace
  | _ => none

/-- With what in hand a worker makes the request. -/
def Request.inOrder (held : List Resource) : Request → Prop
  -- polling, and the readiness probes before it
  | .receiveMessage _ _ | .headBucket _ | .getQueueAttributes | .bindJobContext _ => held = []
  | .getItem _ => held = [] ∨ held = [.context]
  -- the four pairs
  | .clearJobContext | .metric .jobsInflightInc => held = [.context]
  | .metric .jobsInflightDec | .startHeartbeat _ _ => held = [.inflight, .context]
  | .stopHeartbeat | .mkdtemp => held = [.heartbeat, .inflight, .context]
  | .rmtree => held = allInHand
  -- `_render`
  | .getObject _ _ | .readBody _ | .writeBytes _ | .readBytes _ | .openImage _ | .renderOne _ _
  | .putObject _ _ _ _ | .metric (.stageDuration _) => held = allInHand
  -- the record and the message
  | .utcNow | .updateItem _ _ => held = [.context] ∨ held = [.inflight, .context]
  | .elapsedMs | .metric .jobDuration => held = [.inflight, .context]
  | .deleteMessage _ | .metric (.jobsProcessed _) =>
    held = [] ∨ held = [.context] ∨ held = [.inflight, .context]
  -- the pauses of the retry ladder, and the count of its failures
  | .uniform _ | .sleep _ | .metric (.sqsErrors _) => True
  | _ => False

/-- The resources of a worker. A resource is only taken when the request for it is answered. -/
def custody : Custody Request Request.Resp Resource where
  takes v := if returned v then v.1.takes else none
  gives v := v.1.gives
  inOrder := Request.inOrder
  last := by
    rintro held ⟨q, x⟩ r hin hg
    have htakes : q.takes = none := by
      cases q <;> first | rfl | cases hg | (rename_i m; cases m <;> first | rfl | cases hg)
    refine ⟨by rw [htakes, ite_self], ?_⟩
    cases q with
    | clearJobContext | stopHeartbeat | rmtree =>
      obtain rfl : held = _ := hin
      exact hg
    | metric m =>
      cases m with
      | jobsInflightDec =>
        obtain rfl : held = _ := hin
        exact hg
      | _ => cases hg
    | _ => cases hg

/-- The worker, seen by what it has in hand. -/
abbrev handy (ext : Externals) : Interface Request Request.Resp (List Resource) :=
  custody.tracked (Cloud.Answers ext)

/-! ## The functions of the worker -/

section Keeping

variable {ext : Externals} {w : Worker} {rs : List Resource} {q : Request}

theorem keeps_quiet (ht : q.takes = none) (hg : q.gives = none) (hin : q.inOrder rs) :
    Fallible.Keeps (handy ext) (· = rs) (ask q) := by
  intro s hs
  subst hs
  refine (wp_ask _ _ _ _).mpr ⟨hin, ?_⟩
  rintro r _ ⟨-, rfl⟩
  have htakes : custody.takes ⟨q, r⟩ = none := by
    change (if _ then q.takes else none) = none
    rw [ht, ite_self]
  have hquiet : custody.note ⟨q, r⟩ s = s := Custody.note_quiet htakes hg
  cases r with
  | ok x => exact hquiet
  | error e => exact hquiet

/-- Before the body: what could not be taken is not in hand. -/
theorem takes_hold {r : Resource} (ht : q.takes = some r) (hg : q.gives = none) (hin : q.inOrder rs) :
    ∀ s, s = rs → Fallible.wp (handy ext) (ask q) (fun _ s' => s' = r :: rs) (fun _ s' => s' = rs) s := by
  intro s hs
  subst hs
  refine (wp_ask _ _ _ _).mpr ⟨hin, ?_⟩
  rintro a _ ⟨-, rfl⟩
  cases a with
  | ok x => exact Custody.note_take (C := custody) ht
  | error e => exact Custody.note_quiet (C := custody) rfl hg

/-- After the body, on both exits. -/
theorem gives_back {r : Resource} (hg : q.gives = some r) (hin : q.inOrder (r :: rs)) :
    ∀ s, s = r :: rs → Fallible.wp (handy ext) (ask q) (fun _ s' => s' = rs) (fun _ s' => s' = rs) s := by
  intro s hs
  subst hs
  refine (wp_ask _ _ _ _).mpr ⟨hin, ?_⟩
  rintro a _ ⟨-, rfl⟩
  have hgive : custody.note ⟨q, a⟩ (r :: rs) = rs := Custody.note_give (C := custody) hin hg
  cases a with
  | ok x => exact hgive
  | error e => exact hgive

theorem keeps_pause (rs : List Resource) (q : Request) (hq : q.isWait = true) :
    Fallible.Keeps (handy ext) (· = rs) (ask q) := by
  cases q with
  | uniform high => exact keeps_quiet rfl rfl trivial
  | sleep seconds => exact keeps_quiet rfl rfl trivial
  | _ => cases hq

theorem keeps_ladder {policy : RetryPolicy} {operation : String} {swallow : String → Option q.Val}
    (ht : q.takes = none) (hg : q.gives = none) (hin : q.inOrder rs) :
    Fallible.Keeps (handy ext) (· = rs) (callWithRetry policy operation swallow (ask q)) :=
  keeps_callWithRetry (keeps_quiet ht hg hin) (keeps_pause rs) policy operation swallow

/-- A call of the queue. -/
theorem keeps_queue {queue : JobQueue} {operation : String} (ht : q.takes = none) (hg : q.gives = none)
    (hin : q.inOrder rs) : Fallible.Keeps (handy ext) (· = rs) (queue.call operation (ask q)) := by
  refine (keeps_ladder ht hg hin).tryExcept fun e => ?_
  exact (keeps_quiet (q := .metric (.sqsErrors _)) rfl rfl trivial).bind fun _ => .raise e

theorem keeps_deleteQuietly {receipt : String}
    (hrs : rs = [] ∨ rs = [.context] ∨ rs = [.inflight, .context]) :
    Fallible.Keeps (handy ext) (· = rs) (w.deleteQuietly receipt) := by
  unfold Worker.deleteQuietly
  split
  · exact .pure ()
  · exact (keeps_queue (q := .deleteMessage receipt) rfl rfl hrs).tryExcept fun _ => .pure ()

theorem keeps_counted {status : String} {receipt : String} {outcome : Outcome}
    (hrs : rs = [] ∨ rs = [.context] ∨ rs = [.inflight, .context]) :
    Fallible.Keeps (handy ext) (· = rs) (do
      ask (.metric (.jobsProcessed status))
      w.deleteQuietly receipt
      pure outcome : Py Outcome) :=
  (keeps_quiet (q := .metric (.jobsProcessed status)) rfl rfl hrs).bind fun _ =>
    (keeps_deleteQuietly hrs).bind fun _ => .pure outcome

/-- An update of the record, with the clock read before it. -/
theorem keeps_update {table : JobTable} {j : String} {u : String → Update}
    (hrs : rs = [.context] ∨ rs = [.inflight, .context]) :
    Fallible.Keeps (handy ext) (· = rs) (do
      let now : String ← ask .utcNow
      table.updateItem j (u now) : Py Unit) :=
  (keeps_quiet (q := .utcNow) rfl rfl hrs).bind fun now =>
    keeps_ladder (q := .updateItem j (u now)) rfl rfl hrs

theorem keeps_failJob {j receipt reason : String}
    (hrs : rs = [.context] ∨ rs = [.inflight, .context]) :
    Fallible.Keeps (handy ext) (· = rs) (w.failJob j receipt reason) := by
  refine (keeps_update hrs).tryElse (fun e => ?_) fun _ => keeps_counted (.inr hrs)
  split
  · exact .pure Outcome.retry
  · exact .raise e

theorem keeps_stage {α : Type} {m : Py α} {name : String}
    (hm : Fallible.Keeps (handy ext) (· = allInHand) m) :
    Fallible.Keeps (handy ext) (· = allInHand) (stage name m) :=
  hm.tryFinally (keeps_quiet (q := .metric (.stageDuration name)) rfl rfl rfl)

theorem keeps_download {store : S3Store} {key : String} :
    Fallible.Keeps (handy ext) (· = allInHand) (store.downloadTo key) := by
  have hget : Fallible.Keeps (handy ext) (· = allInHand) (store.getBytes key) :=
    (keeps_ladder (q := .getObject store.bucket key) rfl rfl rfl).bind fun body =>
      keeps_quiet (q := .readBody body) rfl rfl rfl
  exact hget.bind fun payload =>
    (keeps_quiet (q := .writeBytes payload) rfl rfl rfl).bind fun _ => .pure _

theorem keeps_thumbnails {file : LocalFile} {sizes : List Nat} :
    Fallible.Keeps (handy ext) (· = allInHand) (renderThumbnails ext file sizes) := by
  refine (keeps_quiet (q := .readBytes file.contents) rfl rfl rfl).bind fun payload => ?_
  refine Fallible.Keeps.tryElse ?_ (fun e => .raise _) fun r => .pure r
  refine (keeps_quiet (q := .openImage payload) rfl rfl rfl).bind fun p => ?_
  refine Fallible.Keeps.bind (.ofExcept _) fun exif => ?_
  refine Fallible.Keeps.bind (.forEach (fun size => ?_) _) fun thumbnails => .pure _
  exact (keeps_quiet (q := .renderOne p size) rfl rfl rfl).bind fun t => .pure _

theorem keeps_upload {j : String} (t : RenderedThumbnail) :
    Fallible.Keeps (handy ext) (· = allInHand) (w.upload j t) := by
  have hput : Fallible.Keeps (handy ext) (· = allInHand)
      (w.clients.store.putBytes (outputKey j t.size) t.data thumbnailContentType) :=
    keeps_ladder (q := .putObject _ _ _ _) rfl rfl rfl
  exact hput.bind fun _ => .pure _

/-- The workspace is removed on both exits. -/
theorem keeps_inWorkspace {job : JobMessage} :
    Fallible.Keeps (handy ext) (· = [.heartbeat, .inflight, .context]) (w.render ext job) := by
  refine Fallible.Keeps.bracket (takes_hold (q := .mkdtemp) rfl rfl rfl) (fun _ => ?_)
    (gives_back (q := .rmtree) rfl rfl)
  refine (keeps_stage keeps_download).bind fun original => ?_
  refine (keeps_stage keeps_thumbnails).bind fun r => ?_
  exact (keeps_stage (.forEach keeps_upload _)).bind fun outputs => .pure _

/-- The heartbeat stops before the record is written. -/
theorem keeps_complete {job : JobMessage} {receipt : String} :
    Fallible.Keeps (handy ext) (· = [.inflight, .context]) (w.complete ext job receipt) := by
  have hrender : Fallible.Keeps (handy ext) (· = [.inflight, .context])
      (Worker.withHeartbeat receipt job.jobId (w.render ext job)) :=
    Fallible.Keeps.bracket (takes_hold (q := .startHeartbeat receipt job.jobId) rfl rfl rfl)
      (fun _ => keeps_inWorkspace) (gives_back (q := .stopHeartbeat) rfl rfl)
  refine hrender.bind fun processed => ?_
  refine (keeps_quiet (q := .elapsedMs) rfl rfl rfl).bind fun ms => ?_
  refine Fallible.Keeps.bind (keeps_update (.inr rfl)) fun _ => ?_
  refine Fallible.Keeps.bind
    (keeps_queue (q := .deleteMessage receipt) rfl rfl (.inr (.inr rfl))) fun _ => ?_
  refine (keeps_quiet (q := .metric (.jobsProcessed "complete")) rfl rfl (.inr (.inr rfl))).bind
    fun _ => ?_
  exact (keeps_quiet (q := .metric .jobDuration) rfl rfl rfl).bind fun _ => .pure _

theorem keeps_attempt {job : JobMessage} {receipt : String} :
    Fallible.Keeps (handy ext) (· = [.context]) (w.attempt ext job receipt) := by
  refine Fallible.Keeps.bracket (takes_hold (q := .metric .jobsInflightInc) rfl rfl rfl) (fun _ => ?_)
    (gives_back (q := .metric .jobsInflightDec) rfl rfl)
  refine keeps_complete.tryExcept fun e => ?_
  cases e with
  | imageProcessing reason =>
    exact (keeps_quiet (q := .metric .jobDuration) rfl rfl rfl).bind fun _ => keeps_failJob (.inr rfl)
  | _ => exact .pure Outcome.retry

/-- What is raised for want of a dependency means a retry. -/
theorem keeps_orRetry (e : Exc) : Fallible.Keeps (handy ext) (· = rs)
    (if e.isDependency then pure .retry else Fallible.raise e : Py Outcome) := by
  split
  · exact .pure Outcome.retry
  · exact .raise e

theorem keeps_markProcessing {table : JobTable} {j : String} :
    Fallible.Keeps (handy ext) (· = [.context]) (table.markProcessing j) := by
  refine (keeps_update (.inl rfl)).tryElse (fun e => ?_) fun _ => .pure true
  split
  · exact .pure false
  · exact .raise e

theorem keeps_getJob {table : JobTable} {j : String} :
    Fallible.Keeps (handy ext) (· = [.context]) (table.getJob ext.intOfStr j) := by
  refine (keeps_ladder (q := .getItem j) rfl rfl (.inr rfl)).bind fun item => ?_
  split
  · exact .pure _
  · exact .raise _

theorem keeps_process {job : JobMessage} {receipt : String} :
    Fallible.Keeps (handy ext) (· = [.context]) (w.process ext job receipt) := by
  have hskip : Fallible.Keeps (handy ext) (· = [.context]) (do
      w.deleteQuietly receipt
      pure .skippedDuplicate : Py Outcome) :=
    (keeps_deleteQuietly (.inr (.inl rfl))).bind fun _ => .pure _
  refine keeps_getJob.tryElse keeps_orRetry fun found => ?_
  cases found with
  | none => exact keeps_counted (.inr (.inl rfl))
  | some record =>
    dsimp only
    split
    · exact hskip
    · split
      · exact keeps_failJob (.inl rfl)
      · refine keeps_markProcessing.tryElse keeps_orRetry fun won => ?_
        split
        · exact keeps_attempt
        · exact hskip

theorem keeps_message {msg : RawMessage} :
    Fallible.Keeps (handy ext) (· = []) (w.handleMessage ext msg) := by
  unfold Worker.handleMessage
  split
  · exact keeps_counted (.inl rfl)
  · rename_i job hjob
    split
    · exact .pure Outcome.retry
    · exact Fallible.Keeps.bracket (takes_hold (q := .bindJobContext job.jobId) rfl rfl rfl)
        (fun _ => keeps_process) (gives_back (q := .clearJobContext) rfl rfl)

/-! ## The process -/

theorem keeps_runOnce : Fallible.Keeps (handy ext) (· = []) (w.runOnce ext) := by
  refine Fallible.Keeps.tryElse
    (keeps_queue (q := .receiveMessage 1 pollWaitSeconds) rfl rfl rfl) (fun e => ?_) fun messages => ?_
  · split
    · exact (keeps_pause [] (.sleep receiveBackoffSeconds) rfl).bind fun _ => .pure 0
    · exact .raise e
  · exact Fallible.Keeps.bind (.forEach (fun _ => keeps_message) messages) fun _ => .pure _

theorem keeps_polling (rounds : Nat) : Fallible.Keeps (handy ext) (· = []) (w.run ext rounds) := by
  induction rounds with
  | zero => exact .pure ()
  | succ rounds ih =>
    refine keeps_runOnce.tryElse (fun e => ?_) fun _ => ih
    exact (keeps_pause [] (.sleep receiveBackoffSeconds) rfl).bind fun _ => ih

theorem keeps_probing {p : ReadinessProbe} : Fallible.Keeps (handy ext) (· = []) p.run := by
  refine keeps_runLoop (List.forall_mem_cons.mpr ⟨?_, List.forall_mem_cons.mpr ⟨?_,
    List.forall_mem_singleton.mpr ?_⟩⟩) _
  · exact keeps_ladder (q := .headBucket _) rfl rfl rfl
  · exact keeps_ladder (q := .getQueueAttributes) rfl rfl rfl
  · exact (keeps_ladder (q := .getItem _) rfl rfl (.inl rfl)).bind fun _ => .pure _

theorem keeps_waiting {clients : AwsClients} :
    Fallible.Keeps (handy ext) (· = []) (waitForDependencies clients) :=
  keeps_waitForDependencies keeps_probing (fun _ => keeps_pause [] (.sleep _) rfl) _ _ _

theorem keeps_workerRun {own : Config} {rounds : Nat} :
    Fallible.Keeps (handy ext) (· = []) (workerRun ext {} own rounds) := by
  rw [workerRun_of_started rfl]
  refine keeps_waiting.tryElse (fun e => ?_) fun _ => ?_
  · cases e with
    | transientDependency text operation => exact .pure _
    | _ => exact .raise _
  · exact (keeps_polling rounds).bind fun _ => .pure 0

end Keeping

section Nesting

variable {ext : Externals} {config : Config} {fleet : Nat → Task} {n : Nat} {own : Config} {rounds : Nat}
  {G : Machine.Guard Nat Request Choice Cloud Request.Resp} {s₀ : Cloud} {d : Site}

/-- Whoever is no worker may ask anything. -/
def custodyDiscipline (ext : Externals) (config : Config) (fleet : Nat → Task) :
    Machine.Discipline (deployment ext config fleet) where
  may n h q :=
    match fleet n with
    | .work _ _ => q.inOrder (custody.held h)
    | _ => True
  answers := Cloud.Answers ext
  post n _ h :=
    match fleet n with
    | .work _ _ => custody.held h = []
    | _ => True
  keeps n := by
    change Prog.wp _ ((fleet n).prog ext config) _ []
    cases fleet n with
    | work own rounds =>
      have hworker : Prog.wp (handy ext) ((Task.work own rounds).prog ext config) (fun _ s => s = [])
          (custody.held []) := by
        refine (Effects.wp_bind _ _ _ _).mpr (Effects.wp_mono (keeps_workerRun [] rfl) ?_)
        rintro (e | code) s hs
        · exact hs
        · exact hs
      exact wp_recorder_of_monitor hworker
    | _ => exact wp_of_may (fun _ _ => trivial) _ []
  answered s q ch r s' hp := ⟨s, ch, s', hp⟩

/-- The four are taken one inside the other. -/
theorem suffix_of_takes {q : Request} {r : Resource} {rs : List Resource} (ht : q.takes = some r)
    (hin : q.inOrder rs) : r :: rs <:+ allInHand := by
  cases q with
  | bindJobContext | startHeartbeat | mkdtemp =>
    obtain rfl := Option.some.inj ht
    obtain rfl : rs = _ := hin
    decide
  | metric m =>
    cases m with
    | jobsInflightInc =>
      obtain rfl := Option.some.inj ht
      obtain rfl : rs = _ := hin
      decide
    | _ => cases ht
  | _ => cases ht

theorem suffix_of_orderly {h : History} (ho : custody.Orderly h) : custody.held h <:+ allInHand := by
  induction ho with
  | nil => exact List.nil_suffix
  | @cons v h hv _ ih =>
    rw [Custody.held_cons]
    cases htakes : custody.takes v with
    | some r =>
      rw [Custody.note_take htakes]
      exact suffix_of_takes (Option.ite_none_right_eq_some.mp htakes).2 hv
    | none =>
      cases hgives : custody.gives v with
      | some r =>
        rw [Custody.note_give hv hgives]
        exact (List.tail_suffix _).trans ih
      | none => rwa [Custody.note_quiet htakes hgives]

theorem countP_takes {h : History} {r : Resource} (ht : h.filterMap custody.takes = allInHand)
    (hr : r ∈ allInHand) : h.countP (fun v => custody.takes v = some r) = 1 := by
  have honce : (h.filterMap custody.takes).count r = 1 := by
    rw [ht]
    exact List.count_eq_one_of_mem (by decide) hr
  rw [List.count, List.countP_filterMap] at honce
  rw [← honce]
  refine List.countP_congr fun v _ => ?_
  cases custody.takes v <;> simp

end Nesting

namespace Surroundings

def hasExited : Option (Except Exc Answer) → Bool
  | some (.ok (.exit code)) => code == 0
  | _ => false

theorem worked_taken : hasExited (worked.result 1) = true ∧
    (history 1 worked.log).filterMap custody.takes = allInHand := by
  decide +kernel

end Surroundings

end PixelForge
