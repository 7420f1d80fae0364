import PixelForge.Pipeline.Draining

/-! # Every accepted upload is concluded

Uploads and rounds of a worker in any order, while nothing is down. Each accepted upload puts one job
on the queue and leaves the others alone, and each round takes one off; so the jobs of all accepted
uploads are `COMPLETE` or `FAILED` after as many rounds more as there were uploads.
-/
set_option autoImplicit false

namespace PixelForge
open Effects Fallible

/-! ## One upload -/

/-- What an upload leaves behind: nothing, its original alone, or the job and its message. -/
inductive Uploaded (ext : Externals) (config : Config) (u : Upload) (s : Cloud) :
    Except Exc JobRecord → Cloud → Prop
  | refused (e : Exc) : Uploaded ext config u s (.error e) s
  | abandoned (e : Exc) {j : String} (x : String) (o : Object) (huuid : isUuid j = true)
      (hfresh : j ∉ s.drawn) : Uploaded ext config u s (.error e)
        (({ s with drawn := j :: s.drawn }).setObject config.s3Bucket (JobService.inputKey j x) o)
  | accepted {r : JobRecord} {it : Item} {mid : String} (attributes : List (String × String))
      (hnew : IsNew ext u r) (huuid : isUuid r.jobId = true) (hfresh : r.jobId ∉ s.drawn)
      (hstored : serializeDict (JobTable.recordItem r) = .ok it) (hne : mid ≠ "")
      (hunused : s.queue mid = none) : Uploaded ext config u s (.ok r)
        (((({ s with drawn := r.jobId :: s.drawn }).setObject config.s3Bucket r.inputKey
          ⟨u.data, r.contentType⟩).setItem r.jobId it).setMessage mid
            ⟨((JobService.build config).newMessage r).toJson ext, attributes, .onQueue⟩)

section Calls

variable {ext : Externals} {exceeds : Item → Bool} {config : Config} {s s' : Cloud}

/-- A request that is answered with a value and keeps the stores. -/
theorem ends_bind_steady {α : Type} {q : Request} {f : q.Val → Py α} {r : Except Exc α}
    (hq : ∀ ch x, s.undisturbed ext exceeds q ch = some x → ∃ v, x = (.ok v, s))
    (h : Ends (undisturbed ext exceeds) (Bind.bind (m := Fallible Request Request.Resp Exc) (ask q) f)
      s r s') : ∃ v, Ends (undisturbed ext exceeds) (f v) s r s' := by
  obtain ⟨v, t, hask, hrest⟩ | ⟨e, hask, -⟩ := ends_bind_iff.mp h
  · obtain ⟨ch, hanswer⟩ := ends_ask_iff.mp hask
    obtain ⟨v', hv⟩ := hq ch _ hanswer
    obtain ⟨-, rfl⟩ := Prod.mk.inj hv
    exact ⟨v, hrest⟩
  · obtain ⟨ch, hanswer⟩ := ends_ask_iff.mp hask
    obtain ⟨v', hv⟩ := hq ch _ hanswer
    cases (Prod.mk.inj hv).1

theorem steady_utcNow (ch : Choice) (x : Except Exc String × Cloud)
    (h : s.undisturbed ext exceeds .utcNow ch = some x) :
    ∃ v : String, x = (.ok v, s) := by
  simp only [Cloud.undisturbed] at h
  split at h
  · exact ⟨ch.text, (Option.some.inj h).symm⟩
  · cases h

theorem ends_uuid4 {r : Except Exc String}
    (h : Ends (undisturbed ext exceeds) (ask .uuid4) s r s') :
    ∃ j, isUuid j = true ∧ j ∉ s.drawn ∧ r = .ok j ∧ s' = { s with drawn := j :: s.drawn } := by
  obtain ⟨ch, hanswer⟩ := ends_ask_iff.mp h
  simp only [Cloud.undisturbed, Cloud.serve] at hanswer
  split at hanswer
  · cases hanswer
  · rename_i hdrawn
    obtain ⟨rfl, rfl⟩ := Prod.mk.inj (Option.some.inj hanswer)
    obtain ⟨huuid, hfresh⟩ := not_or.mp hdrawn
    exact ⟨ch.text, Bool.eq_true_of_not_eq_false huuid, hfresh, rfl, rfl⟩

theorem ends_validateUpload {svc : JobService} {contentType : Option String} {n : Nat}
    {r : Except Exc Unit}
    (h : Ends (undisturbed ext exceeds) (svc.validateUpload ext contentType n) s r s') : s' = s := by
  unfold JobService.validateUpload at h
  split at h
  · exact (ends_raise_iff.mp h).2
  · dsimp only at h
    split at h
    · exact (ends_pure_iff.mp h).2
    · exact (ends_raise_iff.mp h).2

theorem ends_probeUpload {data : Bytes} {r : Except Exc ImageProbe}
    (h : Ends (undisturbed ext exceeds) (JobService.probeUpload data) s r s') : s' = s := by
  have hprobe : ∀ {r t}, Ends (undisturbed ext exceeds) (probeImage data) s r t → t = s := by
    intro r t h
    unfold probeImage at h
    split at h
    · exact (ends_raise_iff.mp h).2
    · obtain ⟨header, t₁, hask, hrest⟩ | ⟨e, t₁, hask, hrest⟩ := ends_tryElse_iff.mp h
      · obtain ⟨ch, hanswer⟩ := ends_ask_iff.mp hask
        obtain ⟨-, rfl⟩ := Prod.mk.inj (Option.some.inj hanswer)
        dsimp only at hrest
        split_ifs at hrest
        all_goals first
          | exact (ends_raise_iff.mp hrest).2
          | exact (ends_pure_iff.mp hrest).2
      · obtain ⟨ch, hanswer⟩ := ends_ask_iff.mp hask
        obtain ⟨-, rfl⟩ := Prod.mk.inj (Option.some.inj hanswer)
        exact (ends_raise_iff.mp hrest).2
  obtain ⟨p, t, hok, hpure⟩ | ⟨e, t, herr, hraise⟩ := ends_tryElse_iff.mp h
  · obtain ⟨-, rfl⟩ := ends_pure_iff.mp hpure
    exact hprobe hok
  · obtain rfl := hprobe herr
    split at hraise <;> exact (ends_raise_iff.mp hraise).2

theorem ends_putBytes {store : S3Store} (hpos : store.policy.attempts ≠ 0) {key ct : String}
    {data : Bytes} {r : Except Exc Unit}
    (h : Ends (undisturbed ext exceeds) (store.putBytes key data ct) s r s') :
    r = .ok () ∧ s' = s.setObject store.bucket key ⟨data, ct⟩ :=
  (ends_retry_answered (q := .putObject store.bucket key data ct) hpos (fun _ => rfl) r s').mp h

theorem ends_putJob {table : JobTable} (hpos : table.policy.attempts ≠ 0) {record : JobRecord}
    {r : Except Exc Unit} (h : Ends (undisturbed ext exceeds) (table.putJob record) s r s') :
    (∃ e, r = .error e) ∧ s' = s ∨ ∃ it, serializeDict (JobTable.recordItem record) = .ok it ∧
      r = .ok () ∧ s' = s.setItem record.jobId it := by
  have hput : ∀ {r t}, Ends (undisturbed ext exceeds) (ask (.putItem (JobTable.recordItem record)))
      s r t → (∃ cls text, r = .error (serializerError cls text)) ∧ t = s ∨
        ∃ it, serializeDict (JobTable.recordItem record) = .ok it ∧ r = .ok () ∧
          t = s.setItem record.jobId it := by
    intro r t h
    obtain ⟨ch, hanswer⟩ := ends_ask_iff.mp h
    simp only [Cloud.undisturbed, Cloud.serve] at hanswer
    cases hd : serializeDict (JobTable.recordItem record) with
    | error e =>
      simp only [hd] at hanswer
      obtain ⟨rfl, rfl⟩ := Prod.mk.inj (Option.some.inj hanswer)
      obtain ⟨cls, text, rfl⟩ := serializeDict_error _ hd
      exact .inl ⟨⟨cls, text, rfl⟩, rfl⟩
    | ok it =>
      simp only [hd, (JobRecord.stored hd).2] at hanswer
      obtain ⟨rfl, rfl⟩ := Prod.mk.inj (Option.some.inj hanswer)
      exact .inr ⟨it, rfl, rfl, rfl⟩
  have hfinal : ∀ e t, Ends (undisturbed ext exceeds)
      (ask (.putItem (JobTable.recordItem record))) s (.error e) t → isTransient e = false := by
    intro e t h
    obtain ⟨⟨cls, text, he⟩, -⟩ | ⟨it, -, hr, -⟩ := hput h
    · obtain rfl := Except.error.inj he
      rfl
    · cases hr
  obtain ⟨⟨cls, text, he⟩, ht⟩ | hstored :=
    hput ((ends_retry (q := .putItem (JobTable.recordItem record)) hpos hfinal).mp h)
  · exact .inl ⟨⟨_, he⟩, ht⟩
  · exact .inr hstored

theorem ends_sendJob {queue : JobQueue} (hpos : queue.policy.attempts ≠ 0) {body : String}
    {attributes : List (String × String)} {r : Except Exc String}
    (h : Ends (undisturbed ext exceeds) (queue.sendJob body attributes) s r s') :
    ∃ mid kept, mid ≠ "" ∧ s.queue mid = none ∧ r = .ok mid ∧
      s' = s.setMessage mid ⟨body, kept, .onQueue⟩ := by
  let kept := attributes.filter fun kv => kv.2 != ""
  have hsend : ∀ {r t}, Ends (undisturbed ext exceeds) (ask (.sendMessage body kept)) s r t →
      ∃ mid, mid ≠ "" ∧ s.queue mid = none ∧ r = .ok mid ∧
        t = s.setMessage mid ⟨body, kept, .onQueue⟩ := by
    intro r t h
    obtain ⟨ch, hanswer⟩ := ends_ask_iff.mp h
    simp only [Cloud.undisturbed, Cloud.serve] at hanswer
    split at hanswer
    · cases hanswer
    · rename_i hfree
      obtain ⟨rfl, rfl⟩ := Prod.mk.inj (Option.some.inj hanswer)
      obtain ⟨hne, hunused⟩ := not_or.mp hfree
      exact ⟨ch.text, hne, by simpa using hunused, rfl, rfl⟩
  have hreturns : ∀ e t, ¬ Ends (undisturbed ext exceeds) (ask (.sendMessage body kept)) s
      (.error e) t := by
    intro e t h
    obtain ⟨_, -, -, hr, -⟩ := hsend h
    cases hr
  obtain ⟨mid, hmid⟩ := hsend (ends_call_returns (q := .sendMessage body kept) hpos hreturns h)
  exact ⟨mid, kept, hmid⟩

theorem ends_enqueue {u : Upload} {record : JobRecord} {r : Except Exc JobRecord}
    (h : Ends (undisturbed ext exceeds) ((JobService.build config).enqueue ext u record) s r s') :
    ∃ mid attributes, mid ≠ "" ∧ s.queue mid = none ∧ r = .ok record ∧
      s' = s.setMessage mid ⟨((JobService.build config).newMessage record).toJson ext, attributes,
        .onQueue⟩ := by
  obtain ⟨context, h⟩ := ends_bind_steady (q := .injectTraceContext)
    (fun ch _ h => ⟨ch.context, (Option.some.inj h).symm⟩) h
  obtain ⟨mid', t, hsend, hrest⟩ | ⟨e, t, hsend, -⟩ := ends_tryElse_iff.mp h
  · obtain ⟨mid, kept, hne, hunused, -, rfl⟩ := ends_sendJob attempts_pos hsend
    have hrest := (ends_bind_of (ends_plain (.metric (.uploads "accepted")) () _)).mp hrest
    have hrest := (ends_bind_of (ends_plain (.metric (.uploadSize u.data.length)) () _)).mp hrest
    obtain ⟨rfl, rfl⟩ := ends_pure_iff.mp hrest
    exact ⟨mid, kept, hne, hunused, rfl, rfl⟩
  · obtain ⟨_, _, -, -, hr, -⟩ := ends_sendJob attempts_pos hsend
    cases hr

/-- How `create_job` may end while nothing is down. -/
theorem ends_createJob {u : Upload} {r : Except Exc JobRecord}
    (h : Ends (undisturbed ext exceeds) ((JobService.build config).createJob ext u) s r s') :
    Uploaded ext config u s r s' := by
  obtain ⟨_, t, hvalid, hprobing⟩ | ⟨e, hvalid, rfl⟩ := ends_bind_iff.mp h
  · obtain rfl := ends_validateUpload hvalid
    obtain ⟨probe, t, hprobe, hdrawing⟩ | ⟨e, hprobe, rfl⟩ := ends_bind_iff.mp hprobing
    · obtain rfl := ends_probeUpload hprobe
      obtain ⟨j, t₁, hdraw, htracing⟩ | ⟨e, hdraw, -⟩ := ends_bind_iff.mp hdrawing
      · obtain ⟨j', huuid, hfresh, hj, rfl⟩ := ends_uuid4 hdraw
        obtain rfl := Except.ok.inj hj
        obtain ⟨traceId, hcreating⟩ := ends_bind_steady (q := .currentTraceId)
          (fun ch _ h => ⟨ch.traceId, (Option.some.inj h).symm⟩) htracing
        obtain ⟨createdAt, hupdating⟩ := ends_bind_steady (q := .utcNow) steady_utcNow hcreating
        obtain ⟨updatedAt, hsubmit⟩ := ends_bind_steady (q := .utcNow) steady_utcNow hupdating
        obtain ⟨_, t₂, hobject, hrecording⟩ | ⟨e, hobject, -⟩ := ends_bind_iff.mp hsubmit
        · obtain ⟨-, rfl⟩ := ends_putBytes attempts_pos hobject
          obtain ⟨_, t₃, hitem, hsending⟩ | ⟨e, hitem, rfl⟩ := ends_bind_iff.mp hrecording
          · obtain ⟨⟨e, he⟩, -⟩ | ⟨it, hstored, -, rfl⟩ := ends_putJob attempts_pos hitem
            · cases he
            · obtain ⟨mid, attributes, hne, hunused, rfl, rfl⟩ := ends_enqueue hsending
              exact .accepted attributes ⟨probe, j, traceId, createdAt, updatedAt, rfl⟩ huuid hfresh
                hstored hne hunused
          · obtain ⟨-, rfl⟩ | ⟨it, -, hr, -⟩ := ends_putJob attempts_pos hitem
            · exact .abandoned e _ _ huuid hfresh
            · cases hr
        · cases (ends_putBytes attempts_pos hobject).1
      · obtain ⟨_, -, -, hr, -⟩ := ends_uuid4 hdraw
        cases hr
    · obtain rfl := ends_probeUpload hprobe
      exact .refused e
  · obtain rfl := ends_validateUpload hvalid
    exact .refused e

end Calls

/-! ## What an upload leaves alone -/

/-- Nothing has changed but the job `j` and the original of `j` with the extension `x`, and no message
has changed. -/
structure Beside (config : Config) (j x : String) (s s' : Cloud) : Prop where
  table : ∀ j', j' ≠ j → s'.table j' = s.table j'
  objects : ∀ k, k ≠ JobService.inputKey j x →
    s'.objects config.s3Bucket k = s.objects config.s3Bucket k
  queue : ∀ mid m, s.queue mid = some m → s'.queue mid = some m
  drawn : s'.drawn = j :: s.drawn

section Beside

variable {ext : Externals} {exceeds : Item → Bool} {config : Config} {s s' : Cloud} {t : Ticket}
  {j x : String}

theorem beside_abandoned (o : Object) : Beside config j x s
    (({ s with drawn := j :: s.drawn }).setObject config.s3Bucket (JobService.inputKey j x) o) where
  table _ _ := rfl
  objects k hk := by
    rw [Cloud.setObject_objects, if_neg fun h => hk h.2]
  queue _ _ hm := hm
  drawn := rfl

theorem beside_accepted {r : JobRecord} (hkey : r.inputKey = JobService.inputKey r.jobId x)
    {mid : String} (hunused : s.queue mid = none) (o : Object) (it : Item) (m : QueuedMessage) :
    Beside config r.jobId x s
      (((({ s with drawn := r.jobId :: s.drawn }).setObject config.s3Bucket r.inputKey o).setItem
        r.jobId it).setMessage mid m) where
  table j' hj' := by
    rw [Cloud.setMessage_table, Cloud.setItem_table, if_neg hj']
    rfl
  objects k hk := by
    rw [Cloud.setMessage_objects, Cloud.setItem_objects, Cloud.setObject_objects,
      if_neg fun h => hk (h.2.trans hkey)]
  queue mid' m' hm' := by
    have hne : mid' ≠ mid := by
      rintro rfl
      rw [hunused] at hm'
      cases hm'
    rw [Cloud.setMessage_queue, if_neg hne]
    exact hm'
  drawn := rfl

theorem Ticket.Waits.beside (h : t.Waits ext exceeds config s) (hb : Beside config j x s s')
    (hne : t.record.jobId ≠ j) (huuid : isUuid j = true) (huuid' : isUuid t.record.jobId = true) :
    t.Waits ext exceeds config s' := by
  have hwaits := h
  obtain ⟨_, _, hawait, -, -, m, hm, -⟩ := hwaits
  obtain ⟨u, hnew⟩ := hawait.new
  obtain ⟨x', hkey⟩ := hnew.inputKey
  refine h.spared ⟨hb.table _ hne, hb.objects _ fun hk => ?_, (hb.queue _ _ hm).trans hm.symm⟩
  exact hne (inputKey_inj huuid' huuid (hkey.symm.trans hk))

theorem Ticket.Finished.beside (h : t.Finished s) (hb : Beside config j x s s')
    (hne : t.record.jobId ≠ j) : t.Finished s' := by
  have hfinished := h
  obtain ⟨-, m, hm, -⟩ := hfinished
  exact h.spared (hb.table _ hne) ((hb.queue _ _ hm).trans hm.symm)

end Beside

/-! ## Uploads and rounds -/

/-- Uploads and rounds of a worker, one after the other. Those that were accepted are listed with
their records, the latest first. -/
inductive Served (ext : Externals) (exceeds : Item → Bool) (config : Config) :
    List (Upload × JobRecord) → Cloud → Prop
  | opened : Served ext exceeds config [] Cloud.empty
  | accepted {served : List (Upload × JobRecord)} {s s' : Cloud} {u : Upload} {r : JobRecord}
      (h : Served ext exceeds config served s)
      (hend : Ends (undisturbed ext exceeds) ((JobService.build config).createJob ext u) s (.ok r) s') :
      Served ext exceeds config ((u, r) :: served) s'
  | refused {served : List (Upload × JobRecord)} {s s' : Cloud} {u : Upload} {e : Exc}
      (h : Served ext exceeds config served s)
      (hend : Ends (undisturbed ext exceeds) ((JobService.build config).createJob ext u) s
        (.error e) s') : Served ext exceeds config served s'
  | polled {served : List (Upload × JobRecord)} {s s' : Cloud} {r : Except Exc Nat}
      (h : Served ext exceeds config served s)
      (hend : Ends (prompt ext exceeds) ((Worker.build config).runOnce ext) s r s') :
      Served ext exceeds config served s'

/-- DynamoDB takes the record of the upload, and what is rendered of it. -/
def Recordable (ext : Externals) (exceeds : Item → Bool) (config : Config) (p : Upload × JobRecord) :
    Prop :=
  ∀ it, serializeDict (JobTable.recordItem p.2) = .ok it → Roomy exceeds p.2.jobId it ∧
    Digestible ext exceeds config.thumbnailSizes p.2.jobId it p.1.data

/-- The jobs of the accepted uploads are those that wait and those that are finished. -/
structure InService (ext : Externals) (exceeds : Item → Bool) (config : Config)
    (served : List (Upload × JobRecord)) (tickets left : List Ticket) (s : Cloud) : Prop where
  stocked : Stocked ext exceeds config tickets left s
  records : tickets.map (·.record) = served.map (·.2)
  drawn : ∀ t ∈ tickets, t.record.jobId ∈ s.drawn ∧ isUuid t.record.jobId = true

section Service

variable {ext : Externals} {exceeds : Item → Bool} {config : Config} {s s' : Cloud}
  {served : List (Upload × JobRecord)} {tickets left : List Ticket} {t : Ticket} {j x : String}

theorem Stocked.queued (h : Stocked ext exceeds config tickets left s) (ht : t ∈ tickets) :
    ∃ m, s.queue t.messageId = some m := by
  by_cases hleft : t ∈ left
  · obtain ⟨-, -, -, -, -, m, hm, -⟩ := h.waits t hleft
    exact ⟨m, hm⟩
  · obtain ⟨-, m, hm, -⟩ := h.finished t ht hleft
    exact ⟨m, hm⟩

theorem InService.fresh (h : InService ext exceeds config served tickets left s) (ht : t ∈ tickets)
    (hfresh : j ∉ s.drawn) : t.record.jobId ≠ j := by
  rintro rfl
  exact hfresh (h.drawn t ht).1

theorem InService.waits_beside (h : InService ext exceeds config served tickets left s)
    (hb : Beside config j x s s') (hfresh : j ∉ s.drawn) (huuid : isUuid j = true) :
    ∀ t ∈ left, t.Waits ext exceeds config s' := by
  intro t ht
  have hmem : t ∈ tickets := h.stocked.part.subset ht
  exact (h.stocked.waits t ht).beside hb (h.fresh hmem hfresh) huuid (h.drawn t hmem).2

theorem InService.finished_beside (h : InService ext exceeds config served tickets left s)
    (hb : Beside config j x s s') (hfresh : j ∉ s.drawn) :
    ∀ t ∈ tickets, t ∉ left → t.Finished s' :=
  fun t ht hn => (h.stocked.finished t ht hn).beside hb (h.fresh ht hfresh)

theorem InService.refused (h : InService ext exceeds config served tickets left s) {u : Upload}
    {e : Exc} (hup : Uploaded ext config u s (.error e) s') :
    InService ext exceeds config served tickets left s' := by
  cases hup with
  | refused => exact h
  | @abandoned _ j x o huuid hfresh =>
    have hb : Beside config j x s _ := beside_abandoned o
    refine ⟨⟨h.stocked.distinct, h.stocked.part, h.waits_beside hb hfresh huuid,
      h.finished_beside hb hfresh, h.stocked.known⟩, h.records, fun t ht => ?_⟩
    exact ⟨List.mem_cons_of_mem _ (h.drawn t ht).1, (h.drawn t ht).2⟩

theorem InService.accepted (h : InService ext exceeds config served tickets left s) {u : Upload}
    {r : JobRecord} (hfits : Recordable ext exceeds config (u, r))
    (hup : Uploaded ext config u s (.ok r) s') :
    ∃ mid, InService ext exceeds config ((u, r) :: served) (⟨mid, r⟩ :: tickets) (⟨mid, r⟩ :: left)
      s' := by
  cases hup with
  | @accepted r it mid attributes hnew huuid hfresh hstored hne hunused =>
    obtain ⟨x, hkey⟩ := hnew.inputKey
    have hb : Beside config r.jobId x s _ := beside_accepted hkey hunused ⟨u.data, r.contentType⟩ it
      ⟨((JobService.build config).newMessage r).toJson ext, attributes, .onQueue⟩
    obtain ⟨hroom, hdigest⟩ := hfits it hstored
    refine ⟨mid, ⟨List.pairwise_cons.mpr ⟨fun t ht => ⟨(h.fresh ht hfresh).symm, ?_⟩,
      h.stocked.distinct⟩, h.stocked.part.cons_cons _, fun t ht => ?_, fun t ht hn => ?_,
      fun mid' m hm hplace => ?_⟩, ?_, fun t ht => ?_⟩
    · rintro rfl
      obtain ⟨m, hm⟩ := h.stocked.queued ht
      rw [hunused] at hm
      cases hm
    · obtain rfl | ht := List.mem_cons.mp ht
      · let m : QueuedMessage :=
          ⟨((JobService.build config).newMessage r).toJson ext, attributes, .onQueue⟩
        refine ⟨it, u.data, ⟨⟨u, hnew⟩, hstored, ?_, ⟨r.contentType, ?_⟩, rfl, hne, ⟨m, ?_⟩⟩, hroom,
          hdigest, m, ?_, rfl, rfl⟩
        · rw [Cloud.setMessage_table, Cloud.setItem_table, if_pos rfl]
        · rw [Cloud.setMessage_objects, Cloud.setItem_objects, Cloud.setObject_objects,
            if_pos ⟨rfl, rfl⟩]
        · exact (Cloud.setMessage_queue ..).trans (if_pos rfl)
        · exact (Cloud.setMessage_queue ..).trans (if_pos rfl)
      · exact h.waits_beside hb hfresh huuid t ht
    · obtain ⟨hnew, hleft⟩ := not_or.mp (List.mem_cons.not.mp hn)
      obtain rfl | ht := List.mem_cons.mp ht
      · exact absurd rfl hnew
      · exact h.finished_beside hb hfresh t ht hleft
    · rw [Cloud.setMessage_queue] at hm
      split at hm
      · exact ⟨⟨mid, r⟩, List.mem_cons_self, Eq.symm ‹_›⟩
      · obtain ⟨t, ht, hid⟩ := h.stocked.known mid' m hm hplace
        exact ⟨t, List.mem_cons_of_mem _ ht, hid⟩
    · rw [List.map_cons, List.map_cons, h.records]
    · obtain rfl | ht := List.mem_cons.mp ht
      · exact ⟨List.mem_cons_self, huuid⟩
      · exact ⟨List.mem_cons_of_mem _ (h.drawn t ht).1, (h.drawn t ht).2⟩

theorem inService (hpillow : ext.Caught) (h : Served ext exceeds config served s)
    (hfits : ∀ p ∈ served, Recordable ext exceeds config p) :
    ∃ tickets left, InService ext exceeds config served tickets left s := by
  induction h with
  | opened =>
    refine ⟨[], [], ⟨.nil, .refl _, ?_, ?_, ?_⟩, rfl, ?_⟩
    · exact fun _ ht => absurd ht List.not_mem_nil
    · exact fun _ ht => absurd ht List.not_mem_nil
    · exact fun _ _ hm => nomatch hm
    · exact fun _ ht => absurd ht List.not_mem_nil
  | accepted _ hend ih =>
    obtain ⟨tickets, left, h⟩ := ih fun p hp => hfits p (List.mem_cons_of_mem _ hp)
    obtain ⟨mid, h⟩ := h.accepted (hfits _ List.mem_cons_self) (ends_createJob hend)
    exact ⟨_, _, h⟩
  | refused _ hend ih =>
    obtain ⟨tickets, left, h⟩ := ih hfits
    exact ⟨tickets, left, h.refused (ends_createJob hend)⟩
  | polled _ hend ih =>
    obtain ⟨tickets, left, h⟩ := ih hfits
    obtain ⟨-, hdrawn, rest, hstocked, -⟩ := h.stocked.round hpillow hend
    exact ⟨tickets, rest, hstocked, h.records, fun t ht => hdrawn ▸ h.drawn t ht⟩

/-- **Every accepted upload is concluded.** After any uploads and rounds in any order while nothing is
down, a worker whose loop makes as many rounds as there were accepted uploads leaves every one of
their jobs `COMPLETE` or `FAILED`, and no message on the queue. -/
theorem uploads_conclude (hpillow : ext.Caught) (h : Served ext exceeds config served s)
    (hfits : ∀ p ∈ served, Recordable ext exceeds config p) {rounds : Nat}
    (hrounds : served.length ≤ rounds) {r : Except Exc Unit}
    (hend : Ends (prompt ext exceeds) ((Worker.build config).run ext rounds) s r s') :
    r = .ok () ∧ (∀ p ∈ served, s'.status p.2.jobId = some .complete ∨
      s'.status p.2.jobId = some .failed) ∧ s'.Emptied := by
  obtain ⟨tickets, left, hservice⟩ := inService hpillow h hfits
  obtain ⟨hr, rest, hstocked, hlength⟩ := hservice.stocked.run hpillow hend
  have hcount : tickets.length = served.length := by
    simpa using congrArg List.length hservice.records
  have hfew : left.length ≤ tickets.length := hservice.stocked.part.length_le
  obtain rfl : rest = [] := List.eq_nil_of_length_eq_zero (by omega)
  refine ⟨hr, fun p hp => ?_, fun mid m hm hplace => ?_⟩
  · have hmem : p.2 ∈ tickets.map (·.record) := hservice.records ▸ List.mem_map_of_mem hp
    obtain ⟨t, ht, hrecord⟩ := List.mem_map.mp hmem
    rw [← hrecord]
    exact (hstocked.finished t ht List.not_mem_nil).1
  · obtain ⟨t, ht, -⟩ := hstocked.known mid m hm hplace
    cases ht

end Service

namespace Surroundings

/-- The upload of the white pixel: the id, the time twice, and the id of the message are drawn. -/
def uploadChoices (t : Ticket) : List Choice :=
  let quiet : Choice := {}
  let stamped : Choice := { text := clock }
  [quiet, { text := t.record.jobId }, quiet, stamped, stamped, quiet, quiet, quiet,
    { text := t.messageId }, quiet, quiet]

def uploadPlayed (t : Ticket) (s : Cloud) : Option (Py JobRecord × Cloud × History) :=
  Prog.play apartFromPolls ((JobService.build config).createJob small goodUpload) s (uploadChoices t)

/-- What such an upload leaves behind. -/
theorem uploaded_of_played {t : Ticket} {s : Cloud}
    (hrecord : (uploadPlayed t s).map (·.1) = some (.ret (.ok t.record)))
    (hqueue : (uploadPlayed t s).any (fun x => (x.2.1.queue t.messageId).isSome) = true)
    (hunused : s.queue t.messageId = none)
    (hstored : (serializeDict (JobTable.recordItem t.record)).toOption.isSome = true) :
    ∃ attributes, Ends (undisturbed small fun _ => false)
      ((JobService.build config).createJob small goodUpload) s (.ok t.record)
      (added t t.record.contentType attributes { s with drawn := t.record.jobId :: s.drawn }) := by
  obtain ⟨⟨p, s', h⟩, hplay, hp⟩ := Option.map_eq_some_iff.mp hrecord
  obtain rfl : p = .ret (.ok t.record) := hp
  have hfound : (s'.queue t.messageId).isSome = true := by
    rw [hplay] at hqueue
    exact hqueue
  have hend : Ends (undisturbed small fun _ => false)
      ((JobService.build config).createJob small goodUpload) s (.ok t.record) s' :=
    Prog.play_answered (fun s q ch r s' h => (prompt_of_apartFromPolls s q ch r s' h).1) hplay
  obtain ⟨it, mid, attributes, hit, hs⟩ : ∃ it mid attributes,
      serializeDict (JobTable.recordItem t.record) = .ok it ∧
      s' = (((({ s with drawn := t.record.jobId :: s.drawn }).setObject config.s3Bucket t.record.inputKey
        ⟨dotGif, t.record.contentType⟩).setItem t.record.jobId it).setMessage mid
          ⟨((JobService.build config).newMessage t.record).toJson small, attributes, .onQueue⟩) := by
    cases ends_createJob hend with
    | accepted attributes _ _ _ hstored _ _ => exact ⟨_, _, attributes, hstored, rfl⟩
  obtain rfl := Except.ok.inj (hit.symm.trans (serialize_itemOf hstored))
  obtain rfl : t.messageId = mid := by
    rw [hs, Cloud.setMessage_queue] at hfound
    split at hfound
    · assumption
    · rw [Cloud.setItem_queue, Cloud.setObject_queue] at hfound
      rw [hunused] at hfound
      cases hfound
  rw [hs] at hend
  exact ⟨attributes, hend⟩

/-- The white pixel is uploaded twice. -/
theorem both_uploaded : ∃ attributes attributes',
    Served small (fun _ => false) config [(goodUpload, other), (goodUpload, fresh)]
      (bothWait [otherId, jobId] fresh.contentType attributes attributes') := by
  obtain ⟨attributes, hfirst⟩ := uploaded_of_played (t := ticket) (s := Cloud.empty) rfl rfl rfl rfl
  obtain ⟨attributes', hsecond⟩ := uploaded_of_played (t := otherTicket)
    (s := added ticket fresh.contentType attributes { Cloud.empty with drawn := [jobId] }) rfl rfl rfl rfl
  have hserved : Served small (fun _ => false) config [(goodUpload, fresh)] _ := .accepted .opened hfirst
  exact ⟨attributes, attributes', .accepted hserved hsecond⟩

/-- The white pixel is uploaded twice, and a loop of two rounds concludes both jobs. -/
theorem uploads_conclude_dots : ∃ s s',
    Served small (fun _ => false) config [(goodUpload, other), (goodUpload, fresh)] s ∧
    Ends (prompt small fun _ => false) ((Worker.build config).run small 2) s (.ok ()) s' ∧
    (∀ j ∈ [otherId, jobId], s'.status j = some .complete ∨ s'.status j = some .failed) ∧ s'.Emptied := by
  obtain ⟨attributes, attributes', hserved⟩ := both_uploaded
  obtain ⟨-, s', -, hrun⟩ := both_run [otherId, jobId] fresh.contentType attributes attributes'
  obtain ⟨-, hconcluded, hempty⟩ := uploads_conclude small_caught hserved (fun p hp => by
    obtain rfl | rfl : p = (goodUpload, other) ∨ p = (goodUpload, fresh) := by simpa using hp
    · exact fun it _ => ⟨roomy _ _, digestible_dotGif _ _⟩
    · exact fun it _ => ⟨roomy _ _, digestible_dotGif _ _⟩) (le_refl _) hrun
  refine ⟨_, s', hserved, hrun, fun j hj => ?_, hempty⟩
  obtain rfl | rfl : j = otherId ∨ j = jobId := by simpa using hj
  · exact hconcluded (goodUpload, other) List.mem_cons_self
  · exact hconcluded (goodUpload, fresh) (List.mem_cons_of_mem _ List.mem_cons_self)

end Surroundings

end PixelForge
