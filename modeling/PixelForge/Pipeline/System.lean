import PixelForge.Api.Protocol
import PixelForge.Effects.Interleaving
import PixelForge.Shared.Surroundings
import PixelForge.Shared.Transitions
import PixelForge.Worker.Discipline

/-! # The pipeline

Any number of `create_job` calls and any number of `handle_message` runs over one bucket, one table
and one queue. Their requests interleave in any order, every AWS call may fail with or without its
effect, every process may crash between two requests, and a message may move to the dead-letter
queue. A message is delivered by starting a worker on it, which may happen any number of times as
long as it is on the queue.

`moved` reads off a log entry which job an update moved to which status.
-/
set_option autoImplicit false

namespace PixelForge
open Effects

/-- One `create_job` call, or one delivery to a worker with the configuration `config`. -/
inductive Proc
  | caller (n : Nat) (u : Upload)
  | worker (n : Nat) (config : Config) (msg : RawMessage)
deriving DecidableEq

/-- What a process returns. -/
inductive Reply
  | record (r : JobRecord)
  | outcome (o : Outcome)

def Proc.isWorker : Proc → Bool
  | .caller _ _ => false
  | .worker _ _ _ => true

def replyWith {α : Type} (f : α → Reply) (m : Py α) :
    Prog Request Request.Resp (Except Exc Reply) :=
  Prog.bind m fun r => .ret (r.map f)

/-- Whether the queue offers the message. -/
def Cloud.offers (s : Cloud) (msg : RawMessage) : Bool :=
  match msg.receiptHandle with
  | none => false
  | some mid =>
    match s.queue mid with
    | none => false
    | some m => m.place == .onQueue && msg.body == some m.body

theorem Cloud.offers_of_queue {s : Cloud} {mid body : String}
    {attributes : List (String × String)}
    (hq : s.queue mid = some ⟨body, attributes, .onQueue⟩) : s.offers ⟨some mid, some body⟩ = true := by
  simp [Cloud.offers, hq]

/-- The redrive policy: a message on the queue is parked on the dead-letter queue. -/
def Cloud.redrive (s : Cloud) (mid : String) : Option Cloud :=
  match s.queue mid with
  | none => none
  | some m =>
    if m.place = .onQueue then some (s.setMessage mid { m with place := .onDeadLetter }) else none

/-- The pipeline of the configuration `config`; `staff` says which processes there are. -/
def pipeline (ext : Externals) (config : Config) (staff : Proc → Bool) :
    Machine Proc Request Choice String Cloud (Except Exc Reply) Request.Resp where
  prog
    | .caller _ u => replyWith .record ((JobService.build config).createJob ext u)
    | .worker _ own msg => replyWith .outcome ((Worker.build own).handleMessage ext msg)
  canStart s p := staff p &&
    match p with
    | .caller _ _ => true
    | .worker _ _ msg => s.offers msg
  perform := Cloud.perform ext
  ambient := Cloud.redrive

theorem pipeline_worker (ext : Externals) (config : Config) (staff : Proc → Bool) (n : Nat)
    (own : Config) (msg : RawMessage) : (pipeline ext config staff).prog (.worker n own msg) =
      replyWith .outcome ((Worker.build own).handleMessage ext msg) := rfl

abbrev Pipe : Type := Snapshot Proc Request Choice Cloud (Except Exc Reply) Request.Resp
abbrev LogEntry : Type := Entry Proc Request Choice Cloud Request.Resp
abbrev Log : Type := List LogEntry
abbrev PipeGuard : Type := Machine.Guard Proc Request Choice Cloud Request.Resp

/-- The outcome a worker has returned, if it has. -/
def outcomeOf (c : Pipe) (i : Proc) : Option Outcome :=
  match c.result i with
  | some (.ok (.outcome o)) => some o
  | _ => none

/-- The record an upload has returned, if it has. -/
def recordOf (c : Pipe) (i : Proc) : Option JobRecord :=
  match c.result i with
  | some (.ok (.record r)) => some r
  | _ => none

theorem thread_of_outcomeOf {c : Pipe} {i : Proc} {o : Outcome} (h : outcomeOf c i = some o) :
    c.thread i = .running (.ret (.ok (.outcome o))) := by
  unfold outcomeOf at h
  split at h
  · rename_i o' ho
    rw [← Option.some.inj h]
    exact Snapshot.result_eq_some.mp ho
  · cases h

theorem thread_of_recordOf {c : Pipe} {i : Proc} {r : JobRecord} (h : recordOf c i = some r) :
    c.thread i = .running (.ret (.ok (.record r))) := by
  unfold recordOf at h
  split at h
  · rename_i r' hr
    rw [← Option.some.inj h]
    exact Snapshot.result_eq_some.mp hr
  · cases h

/-- What a process may ask on account of its own history. -/
def processMay (ext : Externals) (config : Config) : Proc → History → Request → Prop
  | .caller _ u, h, q => CallerMay (.build config) ext u (journal h) q
  | .worker _ own msg, h, q => WorkerMay (.build own) ext msg (journal h) q

/-- What holds when a process returns. -/
def processDone (ext : Externals) (config : Config) : Proc → Except Exc Reply → History → Prop
  | .caller _ u, .ok (.record r), h => CallerDone (.build config) ext u r (journal h)
  | .caller _ _, .ok (.outcome _), _ => False
  | .worker _ _ msg, .ok (.outcome o), h => WorkerDone ext msg o (journal h)
  | .worker _ _ _, .ok (.record _), _ => False
  | _, .error _, _ => True

theorem replyWith_keeps {α : Type} {may : List Ev → Request → Prop}
    {answers : (q : Request) → q.Resp → Prop} {m : Py α} {Q : α → List Ev → Prop}
    {X : Exc → List Ev → Prop} {f : α → Reply} {R : Except Exc Reply → History → Prop}
    (h : Fallible.wp (monitor note may answers) m Q X [])
    (hQ : ∀ a h, Q a (journal h) → R (.ok (f a)) h)
    (hX : ∀ e h, X e (journal h) → R (.error e) h) :
    Prog.wp (recorder (fun h q => may (journal h) q) answers) (replyWith f m) R [] := by
  refine (Effects.wp_bind _ _ _ _).mpr (Effects.wp_mono (wp_recorder_of_monitor h) ?_)
  rintro (e | a) hist hq
  · exact hX e hist hq
  · exact hQ a hist hq

/-- Every process of the pipeline keeps to its protocol. -/
def pipelineDiscipline (ext : Externals) (config : Config) (staff : Proc → Bool) :
    Machine.Discipline (pipeline ext config staff) where
  may := processMay ext config
  answers := Cloud.Answers ext
  post := processDone ext config
  keeps
    | .caller _ u => replyWith_keeps (createJob_keeps (.build config) ext u) (fun _ _ h => h)
        fun _ _ _ => trivial
    | .worker _ own msg => replyWith_keeps (handleMessage_keeps (.build own) ext msg)
        (fun _ _ h => h) fun _ _ _ => trivial
  answered s _ ch _ s' h := ⟨s, ch, s', h⟩

theorem Cloud.redrive_cases {s s' : Cloud} {mid : String} (h : s.redrive mid = some s') :
    ∃ m, s.queue mid = some m ∧ m.place = .onQueue ∧
      s' = s.setMessage mid { m with place := .onDeadLetter } := by
  unfold Cloud.redrive at h
  split at h
  · cases h
  · rename_i m hm
    split at h
    · rename_i hp
      exact ⟨m, hm, hp, (Option.some.inj h).symm⟩
    · cases h

/-! ## Log entries -/

/-- The job that the entry's update moved, and the status it moved it to. -/
def moved (e : LogEntry) : Option (String × JobStatus) :=
  match e.req with
  | .updateItem j u =>
    if e.choice.fault.takesEffect then
      match u.apply j (e.before.table j) with
      | .ok _ => u.target.map fun st => (j, st)
      | .error _ => none
    else none
  | _ => none

section Effects

variable {ext : Externals} {s s' : Cloud} {ch : Choice}

/-- What one entry does to the item of a job. -/
inductive ItemStep (e : LogEntry) (s' : Cloud) (j : String) : Prop
  | same (h : s'.table j = e.before.table j)
  | update {u : Update} {it : Item} (hq : e.req = .updateItem j u)
      (ha : u.apply j (e.before.table j) = .ok it) (hs : s'.table j = some it)
      (hm : moved e = u.target.map fun st => (j, st))
  | put {d : PyDict} {it : Item} (hq : e.req = .putItem d) (hd : serializeDict d = .ok it)
      (hj : itemKey it = some j) (hs : s'.table j = some it)

theorem itemStep {e : LogEntry} (h : e.before.perform ext e.req e.choice = some (e.resp, s'))
    (j : String) : ItemStep e s' j := by
  obtain ⟨who, s, q, ch, r⟩ := e
  dsimp only at h
  obtain rfl | he := Cloud.perform_effect h
  · exact .same rfl
  · cases he with
    | object => exact .same rfl
    | send => exact .same rfl
    | delete => exact .same rfl
    | draw => exact .same rfl
    | @put d it j' hd hj =>
      by_cases hjj : j = j'
      · subst hjj
        exact .put rfl hd hj (by simp [Cloud.setItem_table])
      · exact .same (by simp [Cloud.setItem_table, hjj])
    | @update j' u it hu =>
      by_cases hjj : j = j'
      · subst hjj
        obtain ⟨hs, -⟩ | ⟨it', hf, hit', hs, -⟩ := Cloud.perform_updateItem h
        · exact .same (by rw [hs])
        · refine .update rfl hit' (by simp [hs, Cloud.setItem_table]) ?_
          simp [moved, hf, hit']
      · exact .same (by simp [Cloud.setItem_table, hjj])

theorem table_of_silent {e : LogEntry} (h : e.before.perform ext e.req e.choice = some (e.resp, s'))
    (hu : ∀ j u, e.req ≠ .updateItem j u) (hp : ∀ d, e.req ≠ .putItem d) :
    s'.table = e.before.table := by
  funext j
  cases itemStep h j with
  | same h => exact h
  | update hq => exact absurd hq (hu _ _)
  | put hq => exact absurd hq (hp _)

end Effects

/-! ## Scenes

Runs of `pipeline small config`: an upload that is accepted, and deliveries to workers, of which
each label answers one request. -/

namespace Surroundings

/-- Any upload, and any delivery to a worker with the configuration of the uploads. -/
def colleague : Proc → Bool
  | .caller _ _ => true
  | .worker _ own _ => own == config

abbrev scene : Machine Proc Request Choice String Cloud (Except Exc Reply) Request.Resp :=
  pipeline small config colleague

def caller (u : Upload) : Proc := .caller 0 u
def worker (n : Nat) : Proc := .worker n config delivery

/-- An answer without a fault. -/
def plain : Choice := { text := clock, number := 40 }

/-- The upload up to and including the put of its record. -/
def recorded (u : Upload) : Pipe :=
  scene.played (Machine.initial Cloud.empty)
    (Machine.script (caller u) [plain, { text := jobId }, plain, plain, plain, plain, plain])

/-- The whole upload, without a fault. -/
def accepted (u : Upload) : Pipe :=
  scene.played (recorded u) ([plain, { text := messageId }, plain, plain].map (.act (caller u)))

/-- The next `k` requests of the `n`th worker, answered without a fault. -/
def going (n k : Nat) : List (Label Proc Choice String) := List.replicate k (.act (worker n) plain)

/-- The `n`th worker has been started on the delivery. -/
def started (n : Nat) (c : Pipe) : Pipe :=
  { c with thread :=
      Function.update c.thread (worker n) (.running (replyWith .outcome handleMessageBody)) }

theorem prog_worker (staff : Proc → Bool) (n : Nat) :
    (pipeline small config staff).prog (worker n) = replyWith .outcome handleMessageBody :=
  (pipeline_worker small config staff n config delivery).trans
    (congrArg (replyWith .outcome) handleMessage_delivery)

theorem colleague_worker (n : Nat) : colleague (worker n) = true := beq_self_eq_true config

theorem step_started {staff : Proc → Bool} {n : Nat} {c : Pipe}
    {attributes : List (String × String)} (ha : staff (worker n) = true)
    (hi : c.thread (worker n) = .idle)
    (hq : c.state.queue messageId = some ⟨message.toJson small, attributes, .onQueue⟩) :
    (pipeline small config staff).step c (.start (worker n)) = some (started n c) := by
  have hstart : (pipeline small config staff).canStart c.state (worker n) = true :=
    Bool.and_eq_true_iff.mpr ⟨ha, Cloud.offers_of_queue (toJson_message ▸ hq)⟩
  simp only [Machine.step, hi, hstart, if_true, prog_worker, started]

theorem reach_started {staff : Proc → Bool} {c₀ c : Pipe} {n : Nat}
    {attributes : List (String × String)} (ha : staff (worker n) = true)
    (h : (pipeline small config staff).Reach Machine.always c₀ c)
    (hi : c.thread (worker n) = .idle)
    (hq : c.state.queue messageId = some ⟨message.toJson small, attributes, .onQueue⟩) :
    (pipeline small config staff).Reach Machine.always c₀ (started n c) :=
  h.next (step_started ha hi hq) fun _ _ => trivial

theorem started_idle {i : Proc} {m : Nat} {c : Pipe} (hne : i ≠ worker m)
    (hi : c.thread i = .idle) : (started m c).thread i = .idle :=
  (Function.update_of_ne hne _ _).trans hi

theorem worker_ne {n m : Nat} (hne : n ≠ m) : worker n ≠ worker m :=
  fun h => hne (Proc.worker.inj h).1

theorem worker_ne_caller (n : Nat) (u : Upload) : worker n ≠ caller u :=
  fun h => Proc.noConfusion h

theorem reach_recorded (u : Upload) :
    scene.Reach Machine.always (Machine.initial Cloud.empty) (recorded u) :=
  Machine.Reach.refl.played _

theorem reach_accepted (u : Upload) :
    scene.Reach Machine.always (Machine.initial Cloud.empty) (accepted u) :=
  (reach_recorded u).played _

theorem recorded_idle {u : Upload} {i : Proc} (hi : i ≠ caller u) :
    (recorded u).thread i = .idle := by
  refine Machine.played_thread fun l hl hw => ?_
  obtain rfl | hl := List.mem_cons.mp hl
  · exact hi (Option.some.inj hw).symm
  · obtain ⟨ch, -, rfl⟩ := List.mem_map.mp hl
    exact hi (Option.some.inj hw).symm

theorem accepted_idle {u : Upload} {i : Proc} (hi : i ≠ caller u) :
    (accepted u).thread i = .idle := by
  refine (Machine.played_thread fun l hl hw => ?_).trans (recorded_idle hi)
  obtain ⟨ch, -, rfl⟩ := List.mem_map.mp hl
  exact hi (Option.some.inj hw).symm

theorem accepted_good_queue : (accepted goodUpload).state.queue messageId =
    some ⟨message.toJson small, [("job_id", jobId)], .onQueue⟩ := rfl

theorem accepted_poison_queue : (accepted poisonUpload).state.queue messageId =
    some ⟨message.toJson small, [("job_id", jobId)], .onQueue⟩ := rfl

/-- Two workers are started on the message of an accepted upload. -/
def pair (u : Upload) : Pipe := started 1 (started 0 (accepted u))

theorem pair_idle {u : Upload} {i : Proc} (hc : i ≠ caller u) (h₀ : i ≠ worker 0)
    (h₁ : i ≠ worker 1) : (pair u).thread i = .idle :=
  started_idle h₁ (started_idle h₀ (accepted_idle hc))

theorem reach_pair_of {u : Upload} {c₀ : Pipe}
    (h : scene.Reach Machine.always c₀ (accepted u))
    (hq : (accepted u).state.queue messageId =
      some ⟨message.toJson small, [("job_id", jobId)], .onQueue⟩) :
    scene.Reach Machine.always c₀ (pair u) :=
  have hone := reach_started (colleague_worker 0) h (accepted_idle (worker_ne_caller 0 u)) hq
  reach_started (colleague_worker 1) hone
    (started_idle (worker_ne Nat.one_ne_zero) (accepted_idle (worker_ne_caller 1 u))) hq

theorem reach_pair {u : Upload} (hq : (accepted u).state.queue messageId =
    some ⟨message.toJson small, [("job_id", jobId)], .onQueue⟩) :
    scene.Reach Machine.always (Machine.initial Cloud.empty) (pair u) :=
  reach_pair_of (reach_accepted u) hq

end Surroundings

end PixelForge
