import PixelForge.Pipeline.Accepted
import PixelForge.Worker.FaultFree

/-! # One more delivery

Whatever runs have left behind (crashes, faults, a subset of the thumbnails, a `FAILED` record), a
delivery that is handled alone and without a fault ends in the same `COMPLETE` record, up to
timestamps and `processing_ms`, with the same objects, and its message deleted.
-/
set_option autoImplicit false

namespace PixelForge
open Effects

/-- One process, alone from `c` to `d`, to its end and without a fault; what it opens has an EXIF
directory that can be read. -/
structure FaultFree (ext : Externals) (config : Config) (staff : Proc → Bool) (i : Proc)
    (c d : Pipe) : Prop where
  idle : c.thread i = .idle
  alone : Relation.ReflTransGen
    (fun a b => ∃ l, (pipeline ext config staff).step a l = some b ∧ stepper l = some i) c d
  finished : ∃ a, d.thread i = .running (.ret a)
  clean : ∀ v ∈ history i d.log, wentWell ext v = true

section Runs

variable {ext : Externals} {config : Config} {staff : Proc → Bool} {s₀ : Cloud} {c d : Pipe}

theorem reach_alone {i : Proc}
    (ha : Relation.ReflTransGen
      (fun a b => ∃ l, (pipeline ext config staff).step a l = some b ∧ stepper l = some i) c d) :
    (pipeline ext config staff).Reach Machine.always c d := by
  induction ha with
  | refl => exact .refl
  | tail _ hs ih =>
    obtain ⟨l, hs, -⟩ := hs
    exact ih.next hs fun _ _ => trivial

theorem lookup_once {G : PipeGuard}
    (h : (pipeline ext config staff).Reach G (Machine.initial s₀) c) {n : Nat} {own : Config}
    {msg : RawMessage} {j : String} {it it' : Option Item}
    (hv : readOk j it ∈ journalOf (.worker n own msg) c.log)
    (hv' : readOk j it' ∈ journalOf (.worker n own msg) c.log) : it = it' := by
  revert hv hv'
  refine pipeline_invariant (P := fun _ log =>
    readOk j it ∈ journalOf (.worker n own msg) log →
    readOk j it' ∈ journalOf (.worker n own msg) log → it = it') ?_ ?_ ?_ h
  · intro hv
    cases hv
  · exact fun _ _ _ _ hP _ _ => hP
  · intro c e s' _ hP _ _ hmay _ _ hv hv'
    -- an answered lookup is the first event of its journal
    have hfirst : ∀ {it}, readOk j it = ⟨e.req, e.resp⟩ → e.who = .worker n own msg →
        journal (history (.worker n own msg) c.log) = [] := by
      intro it hev hwho
      rw [hwho] at hmay
      exact lookup_first hmay (looksUp_of_readOk hev)
    obtain hold | ⟨hwho, hev⟩ := journal_cases hv
    · obtain hold' | ⟨hwho, hev⟩ := journal_cases hv'
      · exact hP hold hold'
      · rw [hfirst hev hwho] at hold
        cases hold
    · obtain hold' | ⟨-, hev'⟩ := journal_cases hv'
      · rw [hfirst hev hwho] at hold'
        cases hold'
      · cases hev.trans hev'.symm
        rfl

/-- What a run shows that has completed its job or found it `COMPLETE`. -/
def SawComplete (ext : Externals) (job : JobMessage) (t : List Ev) : Prop :=
  (∃ p ms now, updateOk job.jobId (completeUpdate p ms now) ∈ t) ∨
    ∃ it r, readOk job.jobId it ∈ t ∧ JobTable.decodeItem ext.intOfStr it = .ok (some r) ∧
      r.status = .complete

theorem sawComplete_of_cons {job : JobMessage} {e : LogEntry} {log : Log} {i : Proc}
    (h : SawComplete ext job (journalOf i (e :: log))) :
    SawComplete ext job (journalOf i log) ∨ SawComplete ext job [eventOf e] := by
  obtain ⟨p, ms, now, hv⟩ | ⟨it, r, hv, hd, hr⟩ := h
  · obtain hold | ⟨-, hev⟩ := journal_cases hv
    · exact .inl (.inl ⟨p, ms, now, hold⟩)
    · exact .inr (.inl ⟨p, ms, now, List.mem_singleton.mpr hev⟩)
  · obtain hold | ⟨-, hev⟩ := journal_cases hv
    · exact .inl (.inr ⟨it, r, hold, hd, hr⟩)
    · exact .inr (.inr ⟨it, r, List.mem_singleton.mpr hev, hd, hr⟩)

/-- A run that has seen its job `COMPLETE` only ever repeats its `mark_complete`. -/
theorem update_after_complete {G : PipeGuard}
    (h : (pipeline ext config staff).Reach G (Machine.initial s₀) c) {n : Nat} {own : Config}
    {msg : RawMessage} {job : JobMessage} {t : List Ev} {u : Update}
    (ht : t = journalOf (.worker n own msg) c.log) (hsaw : SawComplete ext job t)
    (hl : Looked ext job t) (hdue : UpdateDue (.build own) ext job t u) :
    u.target = some .complete := by
  obtain ⟨p, ms, now, hv⟩ | ⟨it, r, hv, hd, hr⟩ := hsaw
  · cases hdue with
    | processing now' hnew =>
      exact absurd (hnew _ hv) (by simp [Request.isTerminalWrite, JobStatus.isTerminal])
    | complete ms' now' => rfl
    | failed reason now' hwhy hnew =>
      have heq := hnew _ hv (by simp [Request.isTerminalWrite, JobStatus.isTerminal])
      obtain ⟨-, heq⟩ := Request.updateItem.inj heq
      have htarget := congrArg Update.target heq
      cases htarget
  · obtain ⟨it', r', hv', hd', hr'⟩ := hl
    subst ht
    obtain rfl := lookup_once h hv hv'
    obtain rfl := Option.some.inj (Except.ok.inj (hd.symm.trans hd'))
    exact absurd hr hr'

/-- **A run that is alone leaves the job `COMPLETE`** once it has completed it or found it so. -/
theorem alone_complete {n : Nat} {own : Config} {msg : RawMessage} {job : JobMessage}
    (h : (pipeline ext config staff).Reach Machine.always (Machine.initial s₀) c)
    (hi : c.thread (.worker n own msg) = .idle) (hjob : msg.job? ext = some job)
    (ha : Relation.ReflTransGen (fun a b => ∃ l, (pipeline ext config staff).step a l = some b ∧
      stepper l = some (.worker n own msg)) c d)
    (hsaw : SawComplete ext job (journalOf (.worker n own msg) d.log)) :
    d.state.status job.jobId = some .complete := by
  induction ha with
  | refl =>
    rw [journalOf, h.history_of_idle hi] at hsaw
    obtain ⟨_, _, _, hv⟩ | ⟨_, _, hv, -⟩ := hsaw <;> cases hv
  | @tail a b ha hs ih =>
    obtain ⟨l, hs, hl⟩ := hs
    have hr := h.trans (reach_alone ha)
    obtain ⟨htable, hlog⟩ | ⟨e, hl', hlog, hbefore, hmay, hp⟩ := step_entry hr hs
    · rw [hlog] at hsaw
      rw [Cloud.status, htable]
      exact ih hsaw
    · have hwho : e.who = .worker n own msg := Option.some.inj (hl'.symm.trans hl)
      rw [hlog] at hsaw
      obtain hold | hnew := sawComplete_of_cons hsaw
      · have hst : e.before.status job.jobId = some .complete := hbefore ▸ ih hold
        cases itemStep hp job.jobId with
        | same hsame => rwa [Cloud.status, hsame]
        | @update up it hq ht hs hm =>
          rw [hq, hwho] at hmay
          obtain ⟨job', hjob', hj, hlooked, hdue⟩ := hmay
          obtain rfl := Option.some.inj (hjob.symm.trans hjob')
          rw [Cloud.status, hs, Option.bind_some, hdue.known.status ht]
          exact update_after_complete hr rfl hold hlooked hdue
        | put hq =>
          rw [hq, hwho] at hmay
          exact hmay.elim
      · obtain ⟨p, ms, now, hv⟩ | ⟨it, r, hv, hd, hrec⟩ := hnew
        · exact status_of_moved hmay hp (moved_of_updateOk hp (List.mem_singleton.mp hv).symm).1
        · obtain ⟨hsame, hshow⟩ := lookup_shows hp (List.mem_singleton.mp hv)
          obtain ⟨item, rfl, hdec⟩ := decodes_of_decodeItem hd
          rw [hsame, Cloud.status, hshow, Option.bind_some, hdec.itemStatus, hrec]

/-- **A delivery that is handled alone and without a fault** leaves its job `COMPLETE` and its
message deleted. -/
theorem faultFree_complete {n : Nat} {msg : RawMessage} {r : JobRecord}
    (h : (pipeline ext config staff).Reach Machine.always (Machine.initial Cloud.empty) c)
    (hjob : msg.job? ext = some ((JobService.build config).newMessage r))
    (hf : FaultFree ext config staff (.worker n config msg) c d) :
    (pipeline ext config staff).Reach Machine.always (Machine.initial Cloud.empty) d ∧
      d.state.status r.jobId = some .complete ∧
      ∃ m, d.state.queue msg.receipt = some m ∧ m.place = .deleted := by
  have hd := h.trans (reach_alone hf.alone)
  obtain ⟨a, hover⟩ := hf.finished
  have hstarted : d.thread (.worker n config msg) ≠ .idle := by
    rw [hover]
    exact fun h => by cases h
  have hreceipt : msg.receipt ≠ "" := by
    obtain ⟨mid, m, hmid, hm, -⟩ := message_of_started hd hstarted
    rw [RawMessage.receipt, hmid, Option.getD_some]
    rintro rfl
    rw [no_empty_id hd] at hm
    cases hm
  have hruns : Steps (recorder (fun _ _ => True) (Cloud.Answers ext))
      ((pipeline ext config staff).prog (.worker n config msg)) [] (.ret a)
      (history (.worker n config msg) d.log) :=
    (hd.steps (pipelineDiscipline ext config staff).answered (.worker n config msg)).2 _ hover
  have hclean : Steps (recorder (fun _ _ => True)
      (answered ext ((JobService.build config).newMessage r)))
      ((pipeline ext config staff).prog (.worker n config msg)) [] (.ret a)
      (history (.worker n config msg) d.log) :=
    hruns.restrict fun v hv _ => by
      refine ⟨hf.clean v hv, fun it hev => ?_⟩
      rw [show v = readOk _ it from hev] at hv
      exact lookup_finds hd hjob (mem_journal rfl hv)
  have hend : ∃ o, a = .ok (.outcome o) ∧ EndsWell ext msg ((JobService.build config).newMessage r)
      (journalOf (.worker n config msg) d.log) o :=
    hclean.returned (replyWith_keeps (R := fun a h => ∃ o, a = .ok (.outcome o) ∧
      EndsWell ext msg ((JobService.build config).newMessage r) (journal h) o)
      (handleMessage_faultFree hjob rfl hreceipt (le_refl _)) (fun o h ho => ⟨o, rfl, ho⟩)
      fun _ _ h => h.elim)
  obtain ⟨o, -, hend⟩ := hend
  cases hend with
  | completed hv hdel =>
    exact ⟨hd, alone_complete h hf.idle hjob hf.alone (.inl ⟨_, _, _, hv⟩), gone_of_deleteOk hd hdel⟩
  | skipped hv hdec hr hdel =>
    exact ⟨hd, alone_complete h hf.idle hjob hf.alone (.inr ⟨_, _, hv, hdec, hr⟩),
      gone_of_deleteOk hd hdel⟩

/-! ## The record -/

theorem completeUpdate_get {p : ProcessedOutputs} {ms : Int} {now j a : String}
    {pre : Option Item} {it : Item} {v : PyVal}
    (ha : (completeUpdate p ms now).apply j pre = .ok it) (he : a ≠ "error")
    (hl : (completeUpdate p ms now).set.lookup a = some v) :
    ∃ w, v.serialize = .ok w ∧ it.get a = some w := by
  have hu : (completeUpdate p ms now).Known := .complete p ms now
  have hget := Update.get_apply ha hu.nodup a
  rw [if_neg (hu.kept he)] at hget
  simpa only [hl] using hget

/-- What two updates with the same rendering set is the same, and they remove `error`. -/
theorem completeUpdate_agree {p : ProcessedOutputs} {ms ms' : Int} {now now' j : String}
    {pre pre' : Option Item} {it it' : Item}
    (ha : (completeUpdate p ms now).apply j pre = .ok it)
    (ha' : (completeUpdate p ms' now').apply j pre' = .ok it') :
    it.get "error" = none ∧ (∀ a ∈ rendered, it.get a = it'.get a) ∧
      ∀ a ∈ ["updated_at", "completed_at", "processing_ms"], (it.get a).isSome = true := by
  refine ⟨?_, fun a hmem => ?_, fun a hmem => ?_⟩
  · have hget := Update.get_apply ha (Update.Known.complete p ms now).nodup "error"
    rwa [if_pos (show "error" ∈ (completeUpdate p ms now).remove from List.mem_cons_self)] at hget
  · have hboth : ∀ {v}, a ≠ "error" → (completeUpdate p ms now).set.lookup a = some v →
        (completeUpdate p ms' now').set.lookup a = some v → it.get a = it'.get a := by
      intro v he hl hl'
      obtain ⟨w, hw, hget⟩ := completeUpdate_get ha he hl
      obtain ⟨w', hw', hget'⟩ := completeUpdate_get ha' he hl'
      rw [hget, hget', Except.ok.inj (hw.symm.trans hw')]
    simp only [rendered, List.mem_cons, List.not_mem_nil, or_false] at hmem
    rcases hmem with rfl | rfl | rfl | rfl | rfl | rfl <;> exact hboth (by decide) rfl rfl
  · have hset : ∀ {v}, a ≠ "error" → (completeUpdate p ms now).set.lookup a = some v →
        (it.get a).isSome = true := by
      intro v he hl
      obtain ⟨w, -, hget⟩ := completeUpdate_get ha he hl
      rw [hget, Option.isSome_some]
    simp only [List.mem_cons, List.not_mem_nil, or_false] at hmem
    rcases hmem with rfl | rfl | rfl <;> exact hset (by decide) rfl

/-- What is known of an accepted job that is `COMPLETE`. -/
structure Finalised (ext : Externals) (config : Config) (s : Cloud) (u : Upload) (r : JobRecord)
    (p : ProcessedOutputs) (thumbs : List RenderedThumbnail) (it : Item) : Prop where
  stored : s.table r.jobId = some it
  completed : ∃ ms now pre, (completeUpdate p ms now).apply r.jobId pre = .ok it
  started : (it.get "started_at").isSome = true
  kept : ∀ it₁, serializeDict (JobTable.recordItem r) = .ok it₁ →
    ∀ a, a ∉ measured → a ∉ rendered → a ≠ "error" → it.get a = Item.get it₁ a
  item : ∃ it₁, serializeDict (JobTable.recordItem r) = .ok it₁
  objects : ∀ k o, UnderOutputs r.jobId k → (s.objects config.s3Bucket k = some o ↔
    ∃ th ∈ thumbs, k = outputKey r.jobId th.size ∧ o = ⟨th.data, thumbnailContentType⟩)

variable (hown : ∀ n own msg, staff (.worker n own msg) = true → own = config)

include hown in
theorem finalised (hfix : ext.Fixed)
    (h : (pipeline ext config staff).Reach Machine.always (Machine.initial Cloud.empty) c)
    {n : Nat} {u : Upload} {r : JobRecord}
    (hret : c.thread (.caller n u) = .running (.ret (.ok (.record r))))
    (hst : c.state.status r.jobId = some .complete) :
    ∃ p pic thumbs it job t, job.jobId = r.jobId ∧
      Produced (.build config) ext job t p u.data pic thumbs ∧
      Finalised ext config c.state u r p thumbs it := by
  obtain ⟨hstory, -, hrec, hun⟩ := puts_of_accepted h hret
  obtain ⟨it, job, p, msg, k, data, pic, thumbs, htable, hj, hc⟩ := complete_produced hown h hst
  obtain ⟨m, u', r', hs, rfl, rfl⟩ := fetched_original h hc.decoded hc.produced.fetched
  have hid : r'.jobId = r.jobId := hj
  obtain ⟨-, rfl⟩ := Proc.caller.inj (same_drawer h hstory.drawn (hid ▸ hs.drawn))
  obtain ⟨it', it₁, htable', hit₁, hkept⟩ := untouched_attributes h hstory.drawn hrec hun
  obtain rfl := Option.some.inj (htable.symm.trans htable')
  obtain ⟨it', htable', hstarted⟩ := started_of_won h hstory.new hc.decoded hj hstory.drawn hun hc.won
  obtain rfl := Option.some.inj (htable.symm.trans htable')
  have hobj : ∀ th ∈ thumbs, c.state.objects config.s3Bucket (outputKey r.jobId th.size) =
      some ⟨th.data, thumbnailContentType⟩ := by
    intro th hth
    obtain ⟨_, _, _, -, -, enc, -, -, hstored⟩ :=
      uploaded_stays hown hfix h hc.decoded (hc.produced.uploads th hth)
    exact hid ▸ hstored
  refine ⟨p, pic, thumbs, it, _, _, hj, hc.produced, htable, ?_, hstarted, ?_, ⟨it₁, hit₁⟩, ?_⟩
  · obtain ⟨ms, now, pre, ha⟩ := hc.applied
    exact ⟨ms, now, pre, hj ▸ ha⟩
  · intro it₂ hit₂
    exact Except.ok.inj (hit₁.symm.trans hit₂) ▸ hkept
  · intro key o hunder
    refine ⟨fun ho => ?_, ?_⟩
    · obtain ⟨j, x, rfl⟩ | ⟨j, size, huuid, hsize, rfl⟩ := object_origin hown h ho
      · exact absurd hunder (not_underOutputs_inputKey _ _ _)
      · obtain rfl := eq_of_underOutputs (uuid_of_drawn h hstory.drawn) huuid hunder
        obtain ⟨th, hth, rfl⟩ := hc.produced.exists_thumb hsize
        exact ⟨th, hth, rfl, Option.some.inj (ho.symm.trans (hobj th hth))⟩
    · rintro ⟨th, hth, rfl, rfl⟩
      exact hobj th hth

include hown in
/-- **Crash consistency.** After a run of any kind on an accepted job, one delivery of its message
that is handled alone and without a fault ends in the record that a single such delivery would have
produced, up to timestamps and `processing_ms`, with the same objects under the job's prefix, and
the message gone. -/
theorem one_more_delivery (hfix : ext.Fixed) {c₁ c₂ d d' : Pipe} {n k k' : Nat} {u : Upload}
    {r : JobRecord} {msg msg' : RawMessage}
    (h₁ : (pipeline ext config staff).Reach Machine.always (Machine.initial Cloud.empty) c₁)
    (hret : c₁.thread (.caller n u) = .running (.ret (.ok (.record r))))
    (h₂ : (pipeline ext config staff).Reach Machine.always c₁ c₂)
    (hjob : msg.job? ext = some ((JobService.build config).newMessage r))
    (hjob' : msg'.job? ext = some ((JobService.build config).newMessage r))
    (hd : FaultFree ext config staff (.worker k config msg) c₂ d)
    (hd' : FaultFree ext config staff (.worker k' config msg') c₁ d') :
    d.state.status r.jobId = some .complete ∧
    (∃ it it', d.state.table r.jobId = some it ∧ d'.state.table r.jobId = some it' ∧
      it.get "error" = none ∧ (∀ a, a ∉ measured → it.get a = it'.get a) ∧
      ∀ a, (it.get a).isSome = (it'.get a).isSome) ∧
    (∀ key, UnderOutputs r.jobId key →
      d.state.objects config.s3Bucket key = d'.state.objects config.s3Bucket key) ∧
    ∃ m, d.state.queue msg.receipt = some m ∧ m.place = .deleted := by
  obtain ⟨hreach, hst, hgone⟩ := faultFree_complete (h₁.trans h₂) hjob hd
  obtain ⟨hreach', hst', -⟩ := faultFree_complete h₁ hjob' hd'
  have hret₂ := (h₂.trans (reach_alone hd.alone)).returned hret
  have hret' := (reach_alone hd'.alone).returned hret
  obtain ⟨p, pic, thumbs, it, job, t, hj, hp, hf⟩ := finalised hown hfix hreach hret₂ hst
  obtain ⟨p', pic', thumbs', it', job', t', hj', hp', hf'⟩ := finalised hown hfix hreach' hret' hst'
  obtain ⟨rfl, rfl⟩ := hp.unique hfix (hj'.trans hj.symm) hp'
  obtain ⟨ms, now, pre, ha⟩ := hf.completed
  obtain ⟨ms', now', pre', ha'⟩ := hf'.completed
  obtain ⟨herror, hsame, hset⟩ := completeUpdate_agree ha ha'
  obtain ⟨herror', -, hset'⟩ := completeUpdate_agree ha' ha
  obtain ⟨it₁, hit₁⟩ := hf.item
  have heq : ∀ a, a ∉ measured → it.get a = it'.get a := by
    intro a hm
    by_cases he : a = "error"
    · rw [he, herror, herror']
    by_cases hr : a ∈ rendered
    · exact hsame a hr
    · rw [hf.kept it₁ hit₁ a hm hr he, hf'.kept it₁ hit₁ a hm hr he]
  refine ⟨hst, ⟨it, it', hf.stored, hf'.stored, herror, heq, fun a => ?_⟩, fun key hunder => ?_,
    hgone⟩
  · by_cases hm : a ∈ measured
    · obtain rfl | hm := List.mem_cons.mp hm
      · rw [hf.started, hf'.started]
      · have hm' : a ∈ ["updated_at", "completed_at", "processing_ms"] := hm
        rw [hset a hm', hset' a hm']
    · rw [heq a hm]
  · refine Option.ext fun o => ?_
    rw [hf.objects key o hunder, hf'.objects key o hunder]

end Runs

section Scene
open Surroundings

/-- The `n`th worker handles the delivery alone, and nothing goes wrong. -/
def handledAlone (n : Nat) (c : Pipe) : Pipe := scene.played (started n c) (going n 29)

theorem faultFree_handledAlone {n : Nat} {c : Pipe} {attributes : List (String × String)}
    (hi : c.thread (worker n) = .idle)
    (hq : c.state.queue messageId = some ⟨message.toJson small, attributes, .onQueue⟩)
    (hrun : (outcomeOf (handledAlone n c) (worker n)).isSome = true ∧
      (history (worker n) (handledAlone n c).log).all (wentWell small) = true) :
    FaultFree small config colleague (worker n) c (handledAlone n c) where
  idle := hi
  alone := by
    refine .head ⟨_, step_started (colleague_worker n) hi hq, rfl⟩ (Machine.played_alone fun l hl => ?_)
    rw [List.eq_of_mem_replicate hl]
    rfl
  finished := by
    obtain ⟨o, ho⟩ := Option.isSome_iff_exists.mp hrun.1
    exact ⟨_, thread_of_outcomeOf ho⟩
  clean := List.all_eq_true.mp hrun.2

/-- A crash leaves the job `PROCESSING`, and a second worker fails it and crashes. -/
def leavings : List (Label Proc Choice String) :=
  going 0 10 ++ [.crash (worker 0)] ++ going 1 12 ++ [.act (worker 1) { plain with seed := 1 }] ++
    going 1 6 ++ [.crash (worker 1)]

def left : Pipe := scene.played (pair goodUpload) leavings

set_option maxRecDepth 50000 in
theorem left_queue : left.state.queue messageId =
    some ⟨message.toJson small, [("job_id", jobId)], .onQueue⟩ := (rfl)

theorem left_idle : left.thread (worker 2) = .idle := by
  have hsteppers : ∀ l ∈ leavings, stepper l ≠ some (worker 2) := by decide +kernel
  have hpair : (pair goodUpload).thread (worker 2) = .idle :=
    pair_idle (worker_ne_caller 2 _) (worker_ne (by decide)) (worker_ne (by decide))
  rw [left, Machine.played_thread hsteppers, hpair]

set_option maxRecDepth 50000 in
theorem one_more_delivery_left :
    left.state.status jobId = some .failed ∧
    ∃ d, FaultFree small config colleague (worker 2) left d ∧
      d.state.status jobId = some .complete ∧
      ∃ m, d.state.queue messageId = some m ∧ m.place = .deleted := by
  have hrecord : ((recordOf (accepted goodUpload) (caller goodUpload)).any
      fun r => (JobService.build config).newMessage r == message) = true := rfl
  obtain ⟨r, hr, hmsg⟩ := (Option.any_eq_true _ _).mp hrecord
  have hmsg := eq_of_beq hmsg
  have hid : r.jobId = jobId := congrArg JobMessage.jobId hmsg
  have hjob : delivery.job? small = some ((JobService.build config).newMessage r) := by
    rw [hmsg, job_delivery]
  have hd : FaultFree small config colleague (worker 2) left (handledAlone 2 left) :=
    faultFree_handledAlone left_idle left_queue ⟨rfl, rfl⟩
  have hd' : FaultFree small config colleague (worker 3) (accepted goodUpload)
      (handledAlone 3 (accepted goodUpload)) :=
    faultFree_handledAlone (accepted_idle (worker_ne_caller 3 _)) accepted_good_queue
      ⟨rfl, rfl⟩
  have hleft : scene.Reach Machine.always (accepted goodUpload) left :=
    (reach_pair_of .refl accepted_good_queue).played leavings
  obtain ⟨hst, -, -, hgone⟩ := one_more_delivery own_of_colleague small_fixed
    (reach_accepted goodUpload) (thread_of_recordOf hr)
    hleft hjob hjob hd hd'
  rw [hid] at hst
  rw [show delivery.receipt = messageId from rfl] at hgone
  exact ⟨rfl, handledAlone 2 left, hd, hst, hgone⟩

end Scene

end PixelForge
