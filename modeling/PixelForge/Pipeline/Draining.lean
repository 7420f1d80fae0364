import Mathlib.Data.List.Pairwise
import PixelForge.Pipeline.Isolation
import PixelForge.Worker.Poison
import PixelForge.Worker.Process

/-! # The queue is worked off

While nothing is down and a poll is empty only when no message is on the queue, every round of a
worker's loop concludes one of the jobs that wait, and leaves the others waiting. So a loop of `n`
rounds leaves `n` fewer of them.
-/
set_option autoImplicit false

namespace PixelForge
open Effects Fallible

/-! ## Surroundings in which polls are prompt -/

/-- No message is on the queue. -/
def Cloud.Emptied (s : Cloud) : Prop := ∀ mid m, s.queue mid = some m → m.place ≠ .onQueue

/-- An empty poll says that the queue is empty. -/
def PollsPromptly (s : Cloud) : (q : Request) → q.Resp → Prop
  | .receiveMessage _ _, .ok [] => s.Emptied
  | _, _ => True

/-- Programs on the stores while nothing is down and polls are prompt. -/
def prompt (ext : Externals) (exceeds : Item → Bool) :
    Interface Request Request.Resp Cloud where
  may _ _ := True
  exec s q r s' := (undisturbed ext exceeds).exec s q r s' ∧ PollsPromptly s q r

section Answers

variable {ext : Externals} {exceeds : Item → Bool} {s s' : Cloud}

theorem ends_undisturbed {α : Type} {m : Py α} {r : Except Exc α}
    (h : Ends (prompt ext exceeds) m s r s') : Ends (undisturbed ext exceeds) m s r s' :=
  Steps.congr h fun _ _ _ _ he => he.1

/-- Nothing happens in undisturbed surroundings that may not happen in any. -/
theorem performed_of_undisturbed {q : Request} {r : q.Resp}
    (h : (undisturbed ext exceeds).exec s q r s') : ∃ ch, s.perform ext q ch = some (r, s') := by
  obtain ⟨ch, h⟩ := h
  cases q with
  | updateItem j u =>
    simp only [Cloud.undisturbed, Cloud.updateWithin] at h
    split at h
    · rename_i e he
      refine ⟨{}, ?_⟩
      simp only [Cloud.perform, Cloud.serve, he]
      exact h
    · rename_i it hit
      split at h
      · exact ⟨{ fault := .failed itemTooLarge }, h⟩
      · refine ⟨{}, ?_⟩
        simp only [Cloud.perform, Cloud.serve, hit]
        exact h
  | utcNow =>
    simp only [Cloud.undisturbed] at h
    split at h
    · exact ⟨{ ch with fault := .none }, h⟩
    · cases h
  | elapsedMs =>
    simp only [Cloud.undisturbed] at h
    split at h
    · exact ⟨{ ch with fault := .none }, h⟩
    · cases h
  | _ => exact ⟨{ ch with fault := .none }, h⟩

/-- A call of the queue whose request never raises ends as the request does. -/
theorem ends_call_returns {I : Interface Request Request.Resp Cloud} {queue : JobQueue}
    (hpos : queue.policy.attempts ≠ 0) {q : Request} {operation : String} {r : q.Resp}
    (hreturns : ∀ e t, ¬ Ends I (ask q) s (.error e) t)
    (h : Ends I (queue.call operation (ask q)) s r s') : Ends I (ask q) s r s' := by
  obtain ⟨n, hn⟩ := Nat.exists_eq_succ_of_ne_zero hpos
  have hladder : ∀ {r t}, Ends I (callWithRetry queue.policy operation noSwallow (ask q)) s r t →
      Ends I (ask q) s r t := by
    intro r t h
    rw [callWithRetry, hn, retryLoop] at h
    obtain ⟨a, t', ha, hr⟩ | ⟨e, t', he, -⟩ := ends_tryElse_iff.mp h
    · obtain ⟨rfl, rfl⟩ := ends_pure_iff.mp hr
      exact ha
    · exact absurd he (hreturns e t')
  obtain ⟨a, t, ha, hr⟩ | ⟨e, t, he, -⟩ := ends_tryElse_iff.mp h
  · obtain ⟨rfl, rfl⟩ := ends_pure_iff.mp hr
    exact hladder ha
  · exact absurd (hladder he) (hreturns e t)

/-- A poll changes nothing and finds a message whenever there is one. -/
theorem ends_receive {queue : JobQueue} (hpos : queue.policy.attempts ≠ 0) {n wait : Nat}
    {r : Except Exc (List RawMessage)}
    (h : Ends (prompt ext exceeds) (queue.receive n wait) s r s') :
    s' = s ∧ (r = .ok [] ∧ s.Emptied ∨
      ∃ mid m, s.queue mid = some m ∧ m.place = .onQueue ∧ r = .ok [⟨some mid, some m.body⟩]) := by
  have hask : ∀ {r t}, Ends (prompt ext exceeds) (ask (.receiveMessage n wait)) s r t →
      t = s ∧ (r = .ok [] ∧ s.Emptied ∨ ∃ mid m, s.queue mid = some m ∧ m.place = .onQueue ∧
        r = .ok [⟨some mid, some m.body⟩]) := by
    intro r t h
    obtain ⟨⟨ch, hserve⟩, hprompt⟩ := ends_ask.mp h
    simp only [Cloud.undisturbed, Cloud.serve] at hserve
    split at hserve
    · rename_i m hm
      split at hserve
      · rename_i hplace
        obtain ⟨rfl, rfl⟩ := Prod.mk.inj (Option.some.inj hserve)
        exact ⟨rfl, .inr ⟨ch.text, m, hm, hplace, rfl⟩⟩
      · obtain ⟨rfl, rfl⟩ := Prod.mk.inj (Option.some.inj hserve)
        exact ⟨rfl, .inl ⟨rfl, hprompt⟩⟩
    · obtain ⟨rfl, rfl⟩ := Prod.mk.inj (Option.some.inj hserve)
      exact ⟨rfl, .inl ⟨rfl, hprompt⟩⟩
  have hreturns : ∀ e t, ¬ Ends (prompt ext exceeds) (ask (.receiveMessage n wait)) s (.error e) t := by
    intro e t h
    obtain ⟨-, ⟨hr, -⟩ | ⟨_, _, -, -, hr⟩⟩ := hask h <;> cases hr
  exact hask (ends_call_returns (q := .receiveMessage n wait) hpos hreturns h)

end Answers

/-! ## Jobs that wait -/

/-- A job, and the id of the message that was sent for it. -/
structure Ticket where
  messageId : String
  record : JobRecord

namespace Ticket

variable (ext : Externals) (exceeds : Item → Bool) (config : Config)

/-- What a poll gets. -/
def delivery (t : Ticket) : RawMessage :=
  ⟨some t.messageId, some (((JobService.build config).newMessage t.record).toJson ext)⟩

/-- The job is as `create_job` leaves it, DynamoDB takes what is rendered of it, and its message is
on the queue. -/
def Waits (t : Ticket) (s : Cloud) : Prop :=
  ∃ it data, Awaiting ext config (t.delivery ext config) t.record it data s ∧
    Roomy exceeds t.record.jobId it ∧
    Digestible ext exceeds config.thumbnailSizes t.record.jobId it data ∧
    ∃ m, s.queue t.messageId = some m ∧ m.place = .onQueue ∧
      m.body = ((JobService.build config).newMessage t.record).toJson ext

/-- The job is `COMPLETE` or `FAILED` and its message deleted. -/
def Finished (t : Ticket) (s : Cloud) : Prop :=
  (s.status t.record.jobId = some .complete ∨ s.status t.record.jobId = some .failed) ∧
    ∃ m, s.queue t.messageId = some m ∧ m.place = .deleted

/-- No two tickets have the job or the message in common. -/
def Distinct (t t' : Ticket) : Prop :=
  t.record.jobId ≠ t'.record.jobId ∧ t.messageId ≠ t'.messageId

end Ticket

/-- Of the jobs of `tickets`, those in `left` wait and the others are finished, and there is no other
message on the queue. -/
structure Stocked (ext : Externals) (exceeds : Item → Bool) (config : Config)
    (tickets left : List Ticket) (s : Cloud) : Prop where
  distinct : tickets.Pairwise Ticket.Distinct
  part : left.Sublist tickets
  waits : ∀ t ∈ left, t.Waits ext exceeds config s
  finished : ∀ t ∈ tickets, t ∉ left → t.Finished s
  known : ∀ mid m, s.queue mid = some m → m.place = .onQueue → ∃ t ∈ left, t.messageId = mid

section Handling

variable {ext : Externals} {exceeds : Item → Bool} {config : Config} {s s' : Cloud}
  {t t' : Ticket} {tickets left : List Ticket}

theorem Ticket.Waits.job (h : t.Waits ext exceeds config s) :
    (t.delivery ext config).job? ext = some ((JobService.build config).newMessage t.record) := by
  obtain ⟨it, data, hawait, -⟩ := h
  exact hawait.found.1

theorem confined_of_ends (h : t.Waits ext exceeds config s) {r : Except Exc Outcome}
    (hend : Ends (undisturbed ext exceeds)
      ((Worker.build config).handleMessage ext (t.delivery ext config)) s r s') :
    Confined (Worker.build config) t.record t.messageId s s' := by
  obtain ⟨chs, hist, hplay⟩ := Prog.exists_play (fun _ _ _ _ => performed_of_undisturbed) hend
  exact confined_of_play h.job rfl hplay

/-- The item, the original and the message of a job are as they were. -/
structure Ticket.Spared (config : Config) (t : Ticket) (s s' : Cloud) : Prop where
  item : s'.table t.record.jobId = s.table t.record.jobId
  object : s'.objects config.s3Bucket t.record.inputKey = s.objects config.s3Bucket t.record.inputKey
  message : s'.queue t.messageId = s.queue t.messageId

theorem Ticket.Waits.spared (h : t.Waits ext exceeds config s) (hs : t.Spared config s s') :
    t.Waits ext exceeds config s' := by
  obtain ⟨it, data, hawait, hroom, hdigest, hqueued⟩ := h
  refine ⟨it, data, ?_, hroom, hdigest, hs.message ▸ hqueued⟩
  exact { hawait with
    item := hs.item.trans hawait.item
    object := by
      rw [hs.object]
      exact hawait.object
    queued := by
      obtain ⟨m, hm⟩ := hawait.queued
      exact ⟨m, hs.message.trans hm⟩ }

theorem Ticket.Finished.spared (h : t.Finished s)
    (hitem : s'.table t.record.jobId = s.table t.record.jobId)
    (hmessage : s'.queue t.messageId = s.queue t.messageId) : t.Finished s' := by
  obtain ⟨hstatus, hdeleted⟩ := h
  have hsame : s'.status t.record.jobId = s.status t.record.jobId := by
    rw [Cloud.status, Cloud.status, hitem]
  exact ⟨hsame ▸ hstatus, hmessage ▸ hdeleted⟩

theorem Ticket.Waits.spared_of_confined (h : t'.Waits ext exceeds config s)
    (hc : Confined (Worker.build config) t.record t.messageId s s') (hne : t'.Distinct t) :
    t'.Spared config s s' := by
  obtain ⟨it, data, hawait, -⟩ := h
  obtain ⟨u, hnew⟩ := hawait.new
  obtain ⟨x, hkey⟩ := hnew.inputKey
  refine ⟨hc.table _ hne.1, hc.objects _ _ fun n hn => ?_, hc.queue _ hne.2⟩
  exact inputKey_ne_outputKey t'.record.jobId x t.record.jobId n (hkey.symm.trans hn)

theorem Ticket.Waits.handled (hpillow : ext.Caught) (h : t.Waits ext exceeds config s)
    {r : Except Exc Outcome} (hend : Ends (undisturbed ext exceeds)
      ((Worker.build config).handleMessage ext (t.delivery ext config)) s r s') :
    (∃ outcome, r = .ok outcome) ∧ t.Finished s' := by
  obtain ⟨it, data, hawait, hroom, hdigest, -⟩ := h
  obtain ⟨hres, hdeleted⟩ := (handling_concludes hpillow hawait hroom).mpr hdigest r s' hend
  obtain ⟨hr, hstatus⟩ | ⟨hr, hstatus⟩ := hres
  · exact ⟨⟨_, hr⟩, .inl hstatus, hdeleted⟩
  · exact ⟨⟨_, hr⟩, .inr hstatus, hdeleted⟩

instance : Std.Symm Ticket.Distinct := ⟨fun _ _ h => ⟨h.1.symm, h.2.symm⟩⟩

theorem Stocked.apart (h : Stocked ext exceeds config tickets left s) (ht : t ∈ tickets)
    (ht' : t' ∈ tickets) (hne : t' ≠ t) : t'.Distinct t :=
  h.distinct.forall ht' ht hne

theorem Stocked.nodup (h : Stocked ext exceeds config tickets left s) : left.Nodup :=
  (h.distinct.sublist h.part).imp fun hne heq => hne.1 (congrArg (·.record.jobId) heq)

/-- One job after the other. -/
theorem Stocked.handled (hpillow : ext.Caught) (h : Stocked ext exceeds config tickets left s)
    (ht : t ∈ left) {r : Except Exc Outcome} (hend : Ends (undisturbed ext exceeds)
      ((Worker.build config).handleMessage ext (t.delivery ext config)) s r s') :
    (∃ outcome, r = .ok outcome) ∧ s'.drawn = s.drawn ∧
      ∃ rest, Stocked ext exceeds config tickets rest s' ∧ rest.length = left.length - 1 := by
  classical
  have hc := confined_of_ends (h.waits t ht) hend
  obtain ⟨hr, hdone⟩ := (h.waits t ht).handled hpillow hend
  have hmem : t ∈ tickets := h.part.subset ht
  refine ⟨hr, hc.drawn, left.erase t, ⟨h.distinct, List.erase_sublist.trans h.part, fun t' ht' => ?_,
    fun t' ht' hn => ?_, fun mid m hm hplace => ?_⟩, List.length_erase_of_mem ht⟩
  · obtain ⟨hne, ht'⟩ := h.nodup.mem_erase_iff.mp ht'
    have hapart := h.apart hmem (h.part.subset ht') hne
    exact (h.waits t' ht').spared ((h.waits t' ht').spared_of_confined hc hapart)
  · by_cases heq : t' = t
    · exact heq ▸ hdone
    · have hleft : t' ∉ left := fun hl => hn (h.nodup.mem_erase_iff.mpr ⟨heq, hl⟩)
      have hapart := h.apart hmem ht' heq
      exact (h.finished t' ht' hleft).spared (hc.table _ hapart.1) (hc.queue _ hapart.2)
  · have hne : mid ≠ t.messageId := by
      rintro rfl
      obtain ⟨-, m', hm', hdeleted⟩ := hdone
      obtain rfl := Option.some.inj (hm.symm.trans hm')
      rw [hdeleted] at hplace
      cases hplace
    obtain ⟨t', ht', rfl⟩ := h.known mid m (hc.queue mid hne ▸ hm) hplace
    refine ⟨t', h.nodup.mem_erase_iff.mpr ⟨?_, ht'⟩, rfl⟩
    rintro rfl
    exact hne rfl

/-! ## The loop -/

theorem Stocked.round (hpillow : ext.Caught) (h : Stocked ext exceeds config tickets left s)
    {r : Except Exc Nat}
    (hend : Ends (prompt ext exceeds) ((Worker.build config).runOnce ext) s r s') :
    (∃ n, r = .ok n) ∧ s'.drawn = s.drawn ∧
      ∃ rest, Stocked ext exceeds config tickets rest s' ∧ rest.length = left.length - 1 := by
  obtain ⟨messages, s₁, hpoll, hrest⟩ | ⟨e, s₁, hpoll, -⟩ := ends_tryElse_iff.mp hend
  · obtain ⟨rfl, ⟨hr, hempty⟩ | ⟨mid, m, hm, hplace, hr⟩⟩ := ends_receive attempts_pos hpoll
    · obtain rfl := Except.ok.inj hr
      have hnone : left = [] := by
        refine List.eq_nil_iff_forall_not_mem.mpr fun t ht => ?_
        obtain ⟨-, -, -, -, -, m, hm, hplace, -⟩ := h.waits t ht
        exact hempty _ _ hm hplace
      obtain ⟨rfl, rfl⟩ := ends_pure_iff.mp hrest
      exact ⟨⟨_, rfl⟩, rfl, left, h, by rw [hnone]; rfl⟩
    · obtain rfl := Except.ok.inj hr
      obtain ⟨t, ht, rfl⟩ := h.known mid m hm hplace
      have hdelivery : (⟨some t.messageId, some m.body⟩ : RawMessage) = t.delivery ext config := by
        obtain ⟨-, -, -, -, -, m', hm', -, hbody⟩ := h.waits t ht
        obtain rfl := Option.some.inj (hm.symm.trans hm')
        rw [Ticket.delivery, hbody]
      rw [hdelivery] at hrest
      have hone : ∀ {r t₁}, Ends (prompt ext exceeds)
          ((Worker.build config).handleMessage ext (t.delivery ext config)) s₁ r t₁ →
          (∃ outcome, r = .ok outcome) ∧ t₁.drawn = s₁.drawn ∧
            ∃ rest, Stocked ext exceeds config tickets rest t₁ ∧ rest.length = left.length - 1 :=
        fun hend => h.handled hpillow ht (ends_undisturbed hend)
      obtain ⟨as, s₂, hall, hpure⟩ | ⟨e, hall, -⟩ := ends_bind_iff.mp hrest
      · obtain ⟨rfl, rfl⟩ := ends_pure_iff.mp hpure
        obtain ⟨a, s₃, ha, ⟨as', hnil, -⟩ | ⟨e, hnil, -⟩⟩ | ⟨e, -, hr⟩ := ends_forEach_cons.mp hall
        · obtain ⟨-, rfl⟩ := ends_pure_iff.mp hnil
          exact ⟨⟨_, rfl⟩, (hone ha).2⟩
        · cases (ends_pure_iff.mp hnil).1
        · cases hr
      · obtain ⟨a, s₃, ha, ⟨as', -, hr⟩ | ⟨e, hnil, -⟩⟩ | ⟨e, hhandle, -⟩ := ends_forEach_cons.mp hall
        · cases hr
        · cases (ends_pure_iff.mp hnil).1
        · obtain ⟨⟨outcome, hr⟩, -⟩ := hone hhandle
          cases hr
  · obtain ⟨-, ⟨hr, -⟩ | ⟨_, _, -, -, hr⟩⟩ := ends_receive attempts_pos hpoll <;> cases hr

theorem Stocked.run (hpillow : ext.Caught) (h : Stocked ext exceeds config tickets left s)
    {rounds : Nat} {r : Except Exc Unit}
    (hend : Ends (prompt ext exceeds) ((Worker.build config).run ext rounds) s r s') :
    r = .ok () ∧
      ∃ rest, Stocked ext exceeds config tickets rest s' ∧ rest.length = left.length - rounds := by
  induction rounds generalizing s left with
  | zero =>
    obtain ⟨rfl, rfl⟩ := ends_pure_iff.mp hend
    exact ⟨rfl, left, h, rfl⟩
  | succ rounds ih =>
    obtain ⟨n, s₁, hround, hrest⟩ | ⟨e, s₁, hround, -⟩ := ends_tryElse_iff.mp hend
    · obtain ⟨-, -, rest, hstocked, hlength⟩ := h.round hpillow hround
      obtain ⟨rfl, rest', hstocked', hlength'⟩ := ih hstocked hrest
      exact ⟨rfl, rest', hstocked', by omega⟩
    · obtain ⟨⟨n, hr⟩, -⟩ := h.round hpillow hround
      cases hr

/-- **The queue is worked off.** While nothing is down, `n` rounds of the loop finish `n` of the jobs
that wait, or all of them, and touch none of the others; once they are finished the queue is empty. -/
theorem queue_drains (hpillow : ext.Caught) (h : Stocked ext exceeds config tickets tickets s)
    {rounds : Nat} {r : Except Exc Unit}
    (hend : Ends (prompt ext exceeds) ((Worker.build config).run ext rounds) s r s') :
    r = .ok () ∧
    (∃ left : List Ticket, left.Sublist tickets ∧ left.length = tickets.length - rounds ∧
      (∀ t ∈ left, t.Waits ext exceeds config s') ∧ ∀ t ∈ tickets, t ∉ left → t.Finished s') ∧
    (tickets.length ≤ rounds → (∀ t ∈ tickets, t.Finished s') ∧ s'.Emptied) := by
  obtain ⟨hr, left, hleft, hlength⟩ := h.run hpillow hend
  refine ⟨hr, ⟨left, hleft.part, hlength, hleft.waits, hleft.finished⟩, fun hle => ?_⟩
  have hnone : left = [] := List.eq_nil_of_length_eq_zero (by omega)
  subst hnone
  refine ⟨fun t ht => hleft.finished t ht List.not_mem_nil, fun mid m hm hplace => ?_⟩
  obtain ⟨t, ht, -⟩ := hleft.known mid m hm hplace
  cases ht

end Handling

namespace Surroundings

/-- Two uploads of the white pixel, and the ids of their messages. -/
def ticket : Ticket := ⟨messageId, fresh⟩
def otherTicket : Ticket := ⟨otherMessageId, other⟩

/-- The stores `s`, and in them the job of the ticket. -/
def added (t : Ticket) (contentType : String)
    (attributes : List (String × String)) (s : Cloud) : Cloud :=
  ((s.setObject config.s3Bucket t.record.inputKey ⟨dotGif, contentType⟩).setItem t.record.jobId
    (itemOf t.record)).setMessage t.messageId
      ⟨((JobService.build config).newMessage t.record).toJson small, attributes, .onQueue⟩

section Tickets

variable {t : Ticket} {s s' : Cloud} {contentType : String} {attributes : List (String × String)}

theorem waits_added (hnew : ∃ u, IsNew small u t.record)
    (hstored : (serializeDict (JobTable.recordItem t.record)).toOption.isSome = true)
    (hreceipt : t.messageId ≠ "") :
    t.Waits small (fun _ => false) config (added t contentType attributes s) := by
  have hqueued : (added t contentType attributes s).queue t.messageId =
      some ⟨((JobService.build config).newMessage t.record).toJson small, attributes, .onQueue⟩ := by
    rw [added, Cloud.setMessage_queue, if_pos rfl]
  refine ⟨itemOf t.record, dotGif, ⟨hnew, serialize_itemOf hstored, ?_, ⟨contentType, ?_⟩, rfl, hreceipt,
    ⟨_, hqueued⟩⟩, roomy _ _, digestible_dotGif _ _, _, hqueued, rfl, rfl⟩
  · rw [added, Cloud.setMessage_table, Cloud.setItem_table, if_pos rfl]
  · rw [added, Cloud.setMessage_objects, Cloud.setItem_objects, Cloud.setObject_objects, if_pos ⟨rfl, rfl⟩]

theorem spared_added {t' : Ticket} (hne : t'.Distinct t) (hkey : t'.record.inputKey ≠ t.record.inputKey) :
    t'.Spared config s (added t contentType attributes s) where
  item := by rw [added, Cloud.setMessage_table, Cloud.setItem_table, if_neg hne.1, Cloud.setObject_table]
  object := by
    rw [added, Cloud.setMessage_objects, Cloud.setItem_objects, Cloud.setObject_objects,
      if_neg fun h => hkey h.2]
  message := by rw [added, Cloud.setMessage_queue, if_neg hne.2, Cloud.setItem_queue, Cloud.setObject_queue]

/-- A poll can get the message of the ticket. -/
theorem received (hq : s.queue t.messageId =
    some ⟨((JobService.build config).newMessage t.record).toJson small, attributes, .onQueue⟩) :
    Ends (prompt small fun _ => false) ((Worker.build config).clients.queue.receive 1 pollWaitSeconds) s
      (.ok [t.delivery small config]) s := by
  have hpoll : s.undisturbed small (fun _ => false) (.receiveMessage 1 pollWaitSeconds)
      { text := t.messageId } = some (.ok [t.delivery small config], s) := by
    simp only [Cloud.undisturbed, Cloud.serve, hq, if_true]
    rfl
  have hask : Ends (prompt small fun _ => false) (ask (.receiveMessage 1 pollWaitSeconds)) s
      (.ok [t.delivery small config]) s := ends_ask.mpr ⟨⟨_, hpoll⟩, trivial⟩
  have hladder : Ends (prompt small fun _ => false) (callWithRetry defaultPolicy "sqs.receive_message"
      noSwallow (ask (.receiveMessage 1 pollWaitSeconds))) s (.ok [t.delivery small config]) s :=
    ends_tryElse_iff.mpr (.inl ⟨_, _, hask, ends_pure_iff.mpr ⟨rfl, rfl⟩⟩)
  exact ends_tryElse_iff.mpr (.inl ⟨_, _, hladder, ends_pure_iff.mpr ⟨rfl, rfl⟩⟩)

/-- A round in which it is handled. -/
theorem round_of_handled (hq : s.queue t.messageId =
      some ⟨((JobService.build config).newMessage t.record).toJson small, attributes, .onQueue⟩)
    (hhandled : Ends (prompt small fun _ => false)
      ((Worker.build config).handleMessage small (t.delivery small config)) s (.ok .completed) s') :
    Ends (prompt small fun _ => false) ((Worker.build config).runOnce small) s (.ok 1) s' := by
  have hall : Ends (prompt small fun _ => false)
      (Fallible.forEach ((Worker.build config).handleMessage small) [t.delivery small config]) s
      (.ok [.completed]) s' :=
    ends_forEach_cons.mpr (.inl ⟨_, _, hhandled, .inl ⟨_, ends_pure_iff.mpr ⟨rfl, rfl⟩, rfl⟩⟩)
  exact ends_tryElse_iff.mpr (.inl ⟨_, _, received hq, ends_bind_iff.mpr
    (.inl ⟨_, _, hall, ends_pure_iff.mpr ⟨rfl, rfl⟩⟩)⟩)

theorem run_of_round {rounds : Nat} {n : Nat} {s₁ : Cloud} {r : Except Exc Unit}
    (hround : Ends (prompt small fun _ => false) ((Worker.build config).runOnce small) s (.ok n) s₁)
    (hrest : Ends (prompt small fun _ => false) ((Worker.build config).run small rounds) s₁ r s') :
    Ends (prompt small fun _ => false) ((Worker.build config).run small (rounds + 1)) s r s' :=
  ends_tryElse_iff.mpr (.inl ⟨_, _, hround, hrest⟩)

end Tickets

theorem handleMessage_ticket :
    (Worker.build config).handleMessage small (ticket.delivery small config) = handleMessageBody := by
  have hmessage : (JobService.build config).newMessage fresh = message := rfl
  have hjob : (ticket.delivery small config).job? small = some message := by
    rw [← hmessage]
    exact JobMessage.ofJson?_toJson small rfl
  exact Worker.handleMessage_of_job hjob (le_refl _)

/-- Answers to everything but a poll. -/
def apartFromPolls (s : Cloud) : (q : Request) → Choice → Option (q.Resp × Cloud)
  | .receiveMessage _ _, _ => none
  | q, ch => s.undisturbed small (fun _ => false) q ch

theorem prompt_of_apartFromPolls (s : Cloud) (q : Request) (ch : Choice) (r : q.Resp) (s' : Cloud)
    (h : apartFromPolls s q ch = some (r, s')) :
    (prompt small fun _ => false).exec s q r s' := by
  cases q with
  | receiveMessage n wait => cases h
  | _ => exact ⟨⟨ch, h⟩, trivial⟩

/-- The surroundings' part in a handling: the times of its two updates. -/
def dotChoices : List Choice :=
  let quiet : Choice := {}
  let stamped : Choice := { text := clock }
  [quiet, quiet, stamped] ++ List.replicate 19 quiet ++ [stamped] ++ List.replicate 6 quiet

/-- Both jobs wait. -/
def bothWait (drawn : List String) (contentType : String) (attributes attributes' : List (String × String)) :
    Cloud :=
  added otherTicket contentType attributes'
    (added ticket contentType attributes { Cloud.empty with drawn := drawn })

section Both

variable (drawn : List String) (contentType : String) (attributes attributes' : List (String × String))

theorem distinct_tickets : ticket.Distinct otherTicket := ⟨by decide, by decide⟩

theorem stocked_both : Stocked small (fun _ => false) config [ticket, otherTicket] [ticket, otherTicket]
    (bothWait drawn contentType attributes attributes') where
  distinct := List.pairwise_pair.mpr distinct_tickets
  part := .refl _
  waits := by
    intro t ht
    obtain rfl | rfl : t = ticket ∨ t = otherTicket := by simpa using ht
    · have hwaits : ticket.Waits small (fun _ => false) config
          (added ticket contentType attributes { Cloud.empty with drawn := drawn }) :=
        waits_added ⟨goodUpload, _, jobId, none, clock, clock, rfl⟩ rfl (by decide)
      exact hwaits.spared (spared_added distinct_tickets (by decide))
    · exact waits_added ⟨goodUpload, _, otherId, none, clock, clock, rfl⟩ rfl (by decide)
  finished := fun t ht hn => absurd ht hn
  known := by
    intro mid m hm _
    rw [bothWait, added, Cloud.setMessage_queue] at hm
    split at hm
    · exact ⟨otherTicket, List.mem_cons_of_mem _ (List.mem_singleton_self _), Eq.symm ‹_›⟩
    · rw [Cloud.setItem_queue, Cloud.setObject_queue, added, Cloud.setMessage_queue] at hm
      split at hm
      · exact ⟨ticket, List.mem_cons_self, Eq.symm ‹_›⟩
      · cases hm

set_option maxRecDepth 50000 in
theorem both_played : ((Prog.play apartFromPolls handleMessageBody
    (bothWait drawn contentType attributes attributes') dotChoices).any fun x =>
      returnedCompleted x.1 && (Prog.play apartFromPolls handleOther x.2.1 dotChoices).any fun y =>
        returnedCompleted y.1) = true := by
  rfl

/-- A loop of two rounds handles both, one after the other. -/
theorem both_run : ∃ s₁ s₂,
    Ends (prompt small fun _ => false) ((Worker.build config).run small 1)
      (bothWait drawn contentType attributes attributes') (.ok ()) s₁ ∧
    Ends (prompt small fun _ => false) ((Worker.build config).run small 2)
      (bothWait drawn contentType attributes attributes') (.ok ()) s₂ := by
  obtain ⟨⟨p, s₁, h₁⟩, hplay, hboth⟩ :=
    (Option.any_eq_true _ _).mp (both_played drawn contentType attributes attributes')
  obtain ⟨hp, hother⟩ := Bool.and_eq_true_iff.mp hboth
  obtain ⟨⟨p', s₂, h₂⟩, hplay', hp'⟩ := (Option.any_eq_true _ _).mp hother
  obtain rfl : p = .ret (.ok .completed) := eq_of_returnedCompleted hp
  obtain rfl : p' = .ret (.ok .completed) := eq_of_returnedCompleted hp'
  have hfirst : Ends (prompt small fun _ => false)
      ((Worker.build config).handleMessage small (ticket.delivery small config))
      (bothWait drawn contentType attributes attributes') (.ok .completed) s₁ := by
    rw [handleMessage_ticket]
    exact Prog.play_answered prompt_of_apartFromPolls hplay
  have hsecond : Ends (prompt small fun _ => false)
      ((Worker.build config).handleMessage small (otherTicket.delivery small config)) s₁
      (.ok .completed) s₂ := by
    change Ends _ ((Worker.build config).handleMessage small otherDelivery) _ _ _
    rw [handleMessage_otherDelivery]
    exact Prog.play_answered prompt_of_apartFromPolls hplay'
  have hwaits := (stocked_both drawn contentType attributes attributes').waits ticket List.mem_cons_self
  have hconfined := confined_of_ends hwaits (ends_undisturbed hfirst)
  have hqueued : s₁.queue otherMessageId = some ⟨otherMessage.toJson small, attributes', .onQueue⟩ :=
    (hconfined.queue _ (by decide)).trans ((Cloud.setMessage_queue ..).trans (if_pos rfl))
  have hdone : ∀ s, Ends (prompt small fun _ => false) ((Worker.build config).run small 0) s (.ok ()) s :=
    fun s => ends_pure_iff.mpr ⟨rfl, rfl⟩
  obtain ⟨-, -, -, -, -, ⟨_, _, _⟩, hwaiting, rfl, rfl⟩ := hwaits
  have hround₁ := round_of_handled (t := ticket) hwaiting hfirst
  have hround₂ := round_of_handled (t := otherTicket) hqueued hsecond
  exact ⟨s₁, s₂, run_of_round hround₁ (hdone _), run_of_round hround₁ (run_of_round hround₂ (hdone _))⟩

end Both

/-- One round finishes one of the two jobs and leaves the other waiting, two rounds finish both. -/
theorem queue_drains_dots : ∃ s s₁ s₂,
    Ends (prompt small fun _ => false) ((Worker.build config).run small 1) s (.ok ()) s₁ ∧
    (∃ left : List Ticket, left.Sublist [ticket, otherTicket] ∧ left.length = 1 ∧
      (∀ t ∈ left, t.Waits small (fun _ => false) config s₁) ∧
      ∀ t ∈ [ticket, otherTicket], t ∉ left → t.Finished s₁) ∧
    Ends (prompt small fun _ => false) ((Worker.build config).run small 2) s (.ok ()) s₂ ∧
    (∀ t ∈ [ticket, otherTicket], t.Finished s₂) ∧ s₂.Emptied := by
  obtain ⟨s₁, s₂, hone, htwo⟩ := both_run [] "image/gif" [("job_id", jobId)] [("job_id", otherId)]
  have hstocked := stocked_both [] "image/gif" [("job_id", jobId)] [("job_id", otherId)]
  have hall := (queue_drains small_caught hstocked htwo).2.2 (le_refl _)
  exact ⟨_, s₁, s₂, hone, (queue_drains small_caught hstocked hone).2.1, htwo, hall.1, hall.2⟩

end Surroundings

end PixelForge
