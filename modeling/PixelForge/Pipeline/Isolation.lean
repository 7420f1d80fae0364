import PixelForge.Pipeline.Backing
import PixelForge.Shared.Cells
import PixelForge.Worker.Deliveries

/-! # Jobs do not interfere

The footprint of one handling, and from it that two handlings of different jobs may be run in either
order.
-/
set_option autoImplicit false

namespace PixelForge
open Effects

/-! ## The footprint of a handling -/

section Handling

variable {ext : Externals} {w : Worker} {msg : RawMessage} {job : JobMessage}

/-- The cells a handling may look at: the item of the job and its original. -/
def handlingReads (w : Worker) (job : JobMessage) : Set Cell :=
  {.item job.jobId, .object w.clients.store.bucket job.inputKey}

/-- The cells a handling may change: the item of the job, the message, and the thumbnails. -/
def handlingWrites (w : Worker) (job : JobMessage) (receipt : String) : Set Cell :=
  {.item job.jobId, .message receipt} ∪
    Set.range fun n => .object w.clients.store.bucket (outputKey job.jobId n)

theorem WorkerMay.within {t : List Ev} {q : Request} (h : WorkerMay w ext msg t q)
    (hjob : msg.job? ext = some job) :
    Cell.reads q ⊆ handlingReads w job ∧ Cell.writes q ⊆ handlingWrites w job msg.receipt := by
  have hsame : ∀ {job'}, msg.job? ext = some job' → job' = job := fun h' =>
    Option.some.inj (h'.symm.trans hjob)
  cases q with
  | getItem j =>
    obtain ⟨-, job', hjob', rfl⟩ := h
    obtain rfl := hsame hjob'
    exact ⟨Set.singleton_subset_iff.mpr (.inl rfl), Set.empty_subset _⟩
  | updateItem j u =>
    obtain ⟨job', hjob', rfl, -⟩ := h
    obtain rfl := hsame hjob'
    exact ⟨Set.singleton_subset_iff.mpr (.inl rfl), Set.singleton_subset_iff.mpr (.inl (.inl rfl))⟩
  | getObject b k =>
    obtain ⟨job', hjob', -, rfl, rfl⟩ := h
    obtain rfl := hsame hjob'
    exact ⟨Set.singleton_subset_iff.mpr (.inr rfl), Set.empty_subset _⟩
  | putObject b k body ct =>
    obtain ⟨job', data, th, hjob', -, -, -, rfl, rfl, -⟩ := h
    obtain rfl := hsame hjob'
    exact ⟨Set.empty_subset _, Set.singleton_subset_iff.mpr (.inr ⟨th.size, rfl⟩)⟩
  | deleteMessage r =>
    obtain ⟨rfl, -⟩ := h
    exact ⟨Set.empty_subset _, Set.singleton_subset_iff.mpr (.inl (.inr rfl))⟩
  | putItem d => exact h.elim
  | sendMessage body attributes => exact h.elim
  | receiveMessage n wait => exact h.elim
  | uuid4 => exact h.elim
  | _ => exact ⟨Set.empty_subset _, Set.empty_subset _⟩

/-- **The footprint of a handling**, however far it gets. -/
theorem handling_within (hjob : msg.job? ext = some job) {s s' : Cloud} {chs : List Choice}
    {p : Prog Request Request.Resp (Except Exc Outcome)} {h : History}
    (hp : (w.handleMessage ext msg).play (Cloud.perform ext) s chs = some (p, s', h)) :
    (Cloud.cells ext).Within (handlingReads w job) (handlingWrites w job msg.receipt) h := by
  intro v hv
  have hsteps := Prog.play_steps Cloud.answers_of_perform hp []
  rw [List.append_nil] at hsteps
  obtain ⟨later, earlier, ht⟩ := List.append_of_mem hv
  exact (permitted_of_asked hsteps ht).within hjob

end Handling

/-! ## Two jobs -/

/-- `msg` delivers what `create_job` sends for the new record `r`. -/
def Announces (ext : Externals) (msg : RawMessage) (r : JobRecord) : Prop :=
  ∃ (svc : JobService) (u : Upload), IsNew ext u r ∧
    msg.body = some ((svc.newMessage r).toJson ext)

/-- What a handling of the job of `r` does not change. -/
structure Confined (w : Worker) (r : JobRecord) (receipt : String) (s s' : Cloud) : Prop where
  table : ∀ j, j ≠ r.jobId → s'.table j = s.table j
  objects : ∀ b k, (∀ n, k ≠ outputKey r.jobId n) → s'.objects b k = s.objects b k
  queue : ∀ mid, mid ≠ receipt → s'.queue mid = s.queue mid
  drawn : s'.drawn = s.drawn

/-- How often `m` was counted. -/
def counted (m : Metric) (h : History) : Nat :=
  h.countP fun v =>
    match v.1 with
    | .metric m' => m' == m
    | _ => false

section TwoJobs

variable {ext : Externals} {w : Worker} {msg : RawMessage} {r : JobRecord}

theorem Announces.job (h : Announces ext msg r) :
    ∃ job x, msg.job? ext = some job ∧ job.jobId = r.jobId ∧
      job.inputKey = JobService.inputKey r.jobId x := by
  obtain ⟨svc, u, hnew, hbody⟩ := h
  obtain ⟨x, hx⟩ := hnew.inputKey
  refine ⟨svc.newMessage r, x, ?_, rfl, hx⟩
  rw [RawMessage.job?, hbody]
  exact JobMessage.ofJson?_toJson ext rfl

theorem confined_of_play {job : JobMessage} (hjob : msg.job? ext = some job)
    (hid : job.jobId = r.jobId) {s s' : Cloud} {chs : List Choice}
    {p : Prog Request Request.Resp (Except Exc Outcome)} {h : History}
    (hp : (w.handleMessage ext msg).play (Cloud.perform ext) s chs = some (p, s', h)) :
    Confined w r msg.receipt s s' := by
  have hframe := (Cloud.cells ext).play_frame hp (handling_within hjob hp)
  refine ⟨fun j hj => hframe (.item j) ?_, fun b k hk => hframe (.object b k) ?_,
    fun mid hmid => hframe (.message mid) ?_, hframe .drawn ?_⟩
  · rintro ((hi | hi) | ⟨n, hi⟩)
    · exact hj ((Cell.item.inj hi).trans hid)
    · cases hi
    · cases hi
  · rintro ((hi | hi) | ⟨n, hi⟩)
    · cases hi
    · cases hi
    · exact hk n (hid ▸ (Cell.object.inj hi).2.symm)
  · rintro ((hi | hi) | ⟨n, hi⟩)
    · cases hi
    · exact hmid (Cell.message.inj hi)
    · cases hi
  · rintro ((hi | hi) | ⟨n, hi⟩) <;> cases hi

/-- What one handling reads, another of a different job does not write. -/
theorem reads_disjoint_writes (w w' : Worker) {job job' : JobMessage} {x receipt : String}
    (hid : job.jobId ≠ job'.jobId) (hkey : job.inputKey = JobService.inputKey job.jobId x) :
    Disjoint (handlingReads w job) (handlingWrites w' job' receipt) := by
  rw [Set.disjoint_left]
  rintro i (rfl | rfl) ((hi | hi) | ⟨n, hi⟩)
  · exact hid (Cell.item.inj hi)
  · cases hi
  · cases hi
  · cases hi
  · cases hi
  · exact inputKey_ne_outputKey _ _ _ _ (hkey.symm.trans (Cell.object.inj hi).2.symm)

theorem writes_disjoint_writes (w w' : Worker) {job job' : JobMessage} {receipt receipt' : String}
    (hid : job.jobId ≠ job'.jobId) (hreceipt : receipt ≠ receipt') :
    Disjoint (handlingWrites w job receipt) (handlingWrites w' job' receipt') := by
  rw [Set.disjoint_left]
  rintro i ((rfl | rfl) | ⟨n, rfl⟩) ((hi | hi) | ⟨n', hi⟩)
  · exact hid (Cell.item.inj hi)
  · cases hi
  · cases hi
  · cases hi
  · exact hreceipt (Cell.message.inj hi)
  · cases hi
  · cases hi
  · cases hi
  · exact hid (outputKey_inj (Cell.object.inj hi).2).1.symm

/-- **Jobs do not interfere**: a handling changes nothing but the item, the thumbnails and the
message of its job and goes the same way wherever the item and the original are the same; so two
handlings of different jobs give the same stores, answers and counts in either order. -/
theorem handlings_do_not_interfere (ext : Externals) (w w' : Worker) {msg msg' : RawMessage}
    {r r' : JobRecord} (hmsg : Announces ext msg r) (hmsg' : Announces ext msg' r')
    (hid : r.jobId ≠ r'.jobId) (hreceipt : msg.receipt ≠ msg'.receipt) (s : Cloud) :
    (∀ chs p s' h,
      (w.handleMessage ext msg).play (Cloud.perform ext) s chs = some (p, s', h) →
      Confined w r msg.receipt s s' ∧
      ∃ x, ∀ t : Cloud, t.table r.jobId = s.table r.jobId →
        (∀ b, t.objects b (JobService.inputKey r.jobId x) =
          s.objects b (JobService.inputKey r.jobId x)) →
        ∃ t', (w.handleMessage ext msg).play (Cloud.perform ext) t chs = some (p, t', h) ∧
          t'.table r.jobId = s'.table r.jobId) ∧
    (∀ chs chs' p p' s₁ s₂ h h',
      (w.handleMessage ext msg).play (Cloud.perform ext) s chs = some (p, s₁, h) →
      (w'.handleMessage ext msg').play (Cloud.perform ext) s₁ chs' = some (p', s₂, h') →
      ∃ t₁, (w'.handleMessage ext msg').play (Cloud.perform ext) s chs' = some (p', t₁, h') ∧
        (w.handleMessage ext msg).play (Cloud.perform ext) t₁ chs = some (p, s₂, h) ∧
        ∀ m, counted m (h' ++ h) = counted m (h ++ h')) := by
  obtain ⟨job, x, hjob, hjid, hkey⟩ := hmsg.job
  obtain ⟨job', x', hjob', hjid', hkey'⟩ := hmsg'.job
  have hne : job.jobId ≠ job'.jobId := by rwa [hjid, hjid']
  refine ⟨fun chs p s' h hp => ⟨confined_of_play hjob hjid hp, x, fun t htable hobjects => ?_⟩,
    fun chs chs' p p' s₁ s₂ h h' hp hp' => ?_⟩
  · have hagree : (Cloud.cells ext).Agree (handlingReads w job) s t := by
      rintro i (rfl | rfl)
      · exact (hjid ▸ htable).symm
      · exact (hkey ▸ hobjects w.clients.store.bucket).symm
    obtain ⟨t', ht, hagree'⟩ :=
      (Cloud.cells ext).play_congr hp (handling_within hjob hp) subset_rfl hagree
    refine ⟨t', ht, ?_⟩
    rw [← hjid]
    exact (hagree' (.item job.jobId) (.inl rfl)).symm
  · obtain ⟨t₁, ht₁, ht₂⟩ := (Cloud.cells ext).play_commute hp hp' (handling_within hjob hp)
      (handling_within hjob' hp') (reads_disjoint_writes w w' hne (hjid ▸ hkey))
      (reads_disjoint_writes w' w hne.symm (hjid' ▸ hkey')) (writes_disjoint_writes w w' hne hreceipt)
    refine ⟨t₁, ht₁, ht₂, fun m => ?_⟩
    rw [counted, counted, List.countP_append, List.countP_append, Nat.add_comm]

end TwoJobs

namespace Surroundings

/-- Both jobs wait. -/
def twoWaiting : Cloud := withOther (holding (itemOf (record .pending)))

/-- The answers to a whole handling. -/
def answers : List Choice := List.replicate 29 {}

theorem announces_delivery : Announces small delivery (JobService.newRecord small goodUpload
    ⟨"GIF", 1, 1, ".gif"⟩ jobId none clock clock) := by
  refine ⟨.build config, goodUpload, ⟨_, jobId, none, clock, clock, rfl⟩, ?_⟩
  exact congrArg some toJson_message.symm

theorem announces_otherDelivery : Announces small otherDelivery other :=
  ⟨.build config, goodUpload, ⟨_, otherId, none, clock, clock, rfl⟩, rfl⟩

theorem delivery_completes : ∃ s h, ((Worker.build config).handleMessage small delivery).play
    (Cloud.perform small) twoWaiting answers = some (.ret (.ok .completed), s, h) := by
  have hplay : ((Prog.play (Cloud.perform small) handleMessageBody twoWaiting answers).any
      fun x => returnedCompleted x.1) = true := by rfl
  obtain ⟨⟨p, s, h⟩, hrun, hcompleted⟩ := (Option.any_eq_true _ _).mp hplay
  rw [handleMessage_delivery]
  exact ⟨s, h, eq_of_returnedCompleted hcompleted ▸ hrun⟩

theorem otherDelivery_completes : ∃ s h, ((Worker.build config).handleMessage small otherDelivery).play
    (Cloud.perform small) twoWaiting answers = some (.ret (.ok .completed), s, h) := by
  have hplay : ((Prog.play (Cloud.perform small) handleOther twoWaiting answers).any
      fun x => returnedCompleted x.1) = true := by rfl
  obtain ⟨⟨p, s, h⟩, hrun, hcompleted⟩ := (Option.any_eq_true _ _).mp hplay
  rw [handleMessage_otherDelivery]
  exact ⟨s, h, eq_of_returnedCompleted hcompleted ▸ hrun⟩

/-- Both jobs are completed, in either order. -/
theorem handlings_do_not_interfere_both : ∃ s₁ t₁ s₂ h h',
    ((Worker.build config).handleMessage small delivery).play (Cloud.perform small) twoWaiting
      answers = some (.ret (.ok .completed), s₁, h) ∧
    ((Worker.build config).handleMessage small otherDelivery).play (Cloud.perform small) s₁
      answers = some (.ret (.ok .completed), s₂, h') ∧
    ((Worker.build config).handleMessage small otherDelivery).play (Cloud.perform small) twoWaiting
      answers = some (.ret (.ok .completed), t₁, h') ∧
    ((Worker.build config).handleMessage small delivery).play (Cloud.perform small) t₁
      answers = some (.ret (.ok .completed), s₂, h) := by
  obtain ⟨s₁, h, hfirst⟩ := delivery_completes
  obtain ⟨t, h', hsecond⟩ := otherDelivery_completes
  obtain ⟨hone, htwo⟩ := handlings_do_not_interfere small (.build config) (.build config)
    announces_delivery announces_otherDelivery (by decide) (by decide) twoWaiting
  obtain ⟨hother, -⟩ := handlings_do_not_interfere small (.build config) (.build config)
    announces_otherDelivery announces_delivery (by decide) (by decide) twoWaiting
  obtain ⟨hconfined, -⟩ := hone _ _ _ _ hfirst
  obtain ⟨-, x, hsame⟩ := hother _ _ _ _ hsecond
  obtain ⟨s₂, hafter, -⟩ := hsame s₁ (hconfined.table _ (by decide)) fun b =>
    hconfined.objects b _ fun n => inputKey_ne_outputKey _ _ _ _
  obtain ⟨t₁, hbefore, hagain, -⟩ := htwo _ _ _ _ _ _ _ _ hfirst hafter
  exact ⟨s₁, t₁, s₂, h, h', hfirst, hafter, hbefore, hagain⟩

end Surroundings

end PixelForge
