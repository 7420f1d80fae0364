import PixelForge.Pipeline.Outputs

/-! # What a job that was accepted keeps

An upload that returned has only ever put its new record (`puts_of_accepted`). So the attributes
that no update sets stay as it recorded them, and what the updates set is determined by the
original (`Produced.unique`), however the runs on it went.
-/
set_option autoImplicit false

namespace PixelForge
open Effects

/-! ## What was produced is determined -/

section Unique

variable {ext : Externals} {w : Worker} {job job' : JobMessage} {t t' : List Ev}

theorem thumbs_unique (hfix : ext.Fixed) {data : Bytes} {thumbs thumbs' : List RenderedThumbnail}
    (hr : ∀ th ∈ thumbs, Rendered w ext data th) (hr' : ∀ th ∈ thumbs', Rendered w ext data th)
    (hs : thumbs.map (·.size) = thumbs'.map (·.size)) : thumbs = thumbs' := by
  induction thumbs generalizing thumbs' with
  | nil => exact (List.map_eq_nil_iff.mp hs.symm).symm
  | cons th thumbs ih =>
    cases thumbs' with
    | nil => cases hs
    | cons th' thumbs' =>
      obtain ⟨hsize, hrest⟩ := List.cons.inj hs
      obtain ⟨size, d, width, height⟩ := th
      obtain ⟨size', d', width', height'⟩ := th'
      obtain rfl : size = size' := hsize
      obtain ⟨rfl, rfl, rfl⟩ := Encoded.mk.inj (hfix.renders_eq
        (hr _ List.mem_cons_self).renders (hr' _ List.mem_cons_self).renders)
      rw [ih (fun th h => hr th (List.mem_cons_of_mem _ h))
        (fun th h => hr' th (List.mem_cons_of_mem _ h)) hrest]

/-- Two runs that produced outputs for one job from the same original produced the same. -/
theorem Produced.unique (hfix : ext.Fixed) {p p' : ProcessedOutputs} {data : Bytes}
    {pic pic' : Picture} {thumbs thumbs' : List RenderedThumbnail}
    (hj : job'.jobId = job.jobId) (h : Produced w ext job t p data pic thumbs)
    (h' : Produced w ext job' t' p' data pic' thumbs') : p = p' ∧ thumbs = thumbs' := by
  obtain rfl := thumbs_unique hfix h.rendered h'.rendered (h.sizes.trans h'.sizes.symm)
  obtain rfl := hfix.opens h.opens h'.opens
  have hexif : p.exif = p'.exif := Except.ok.inj (h.extracts.symm.trans h'.extracts)
  exact ⟨by rw [h.eq, h'.eq, hj, hexif], rfl⟩

end Unique

/-! ## What no update sets -/

/-- The timestamps that workers write, and `processing_ms`. -/
def measured : List String := ["started_at", "updated_at", "completed_at", "processing_ms"]

/-- What `mark_complete` records of a rendering. -/
def rendered : List String :=
  ["status", "outputs", "exif", "source_width", "source_height", "source_format"]

theorem untouched_keys {u : Update} (hu : u.Known) {a : String} (hm : a ∉ measured)
    (hr : a ∉ rendered) (he : a ≠ "error") : a ∉ u.set.map Prod.fst ∧ a ∉ u.remove := by
  refine ⟨?_, hu.kept he⟩
  simp only [measured, rendered, List.mem_cons, List.not_mem_nil, or_false, not_or] at hm hr
  cases hu with
  | processing now =>
    rw [processingUpdate_keys]
    simp [hm, hr]
  | complete p ms now =>
    rw [completeUpdate_keys]
    simp [hm, hr]
  | failed reason now =>
    rw [failedUpdate_keys]
    simp [hm, hr, he]

section Runs

variable {ext : Externals} {config : Config} {staff : Proc → Bool} {G : PipeGuard} {c : Pipe}

/-- Once a send was answered, the upload has only ever put its new record. -/
theorem puts_of_sent {s₀ : Cloud} (h : (pipeline ext config staff).Reach G (Machine.initial s₀) c)
    {n : Nat} {u : Upload} {body : String} {attributes : List (String × String)} {mid : String}
    (hv : sentOk body attributes mid ∈ journalOf (.caller n u) c.log) :
    ∃ r, Uncompensated r (journalOf (.caller n u) c.log) := by
  revert hv
  refine pipeline_invariant (P := fun _ log =>
    sentOk body attributes mid ∈ journalOf (.caller n u) log →
      ∃ r, Uncompensated r (journalOf (.caller n u) log)) ?_ ?_ ?_ h
  · intro hv
    cases hv
  · exact fun _ _ _ _ hP _ _ => hP
  · intro c e s' _ hP _ _ hmay _ _ hv
    obtain ⟨who, s, q, ch, ans⟩ := e
    obtain hold | ⟨hwho, hev⟩ := journal_cases hv
    · obtain ⟨r, hun⟩ := hP hold
      refine ⟨r, fun d ans' hd => ?_⟩
      obtain hd | ⟨hwho, hev⟩ := journal_cases hd
      · exact hun d ans' hd
      · obtain rfl : who = .caller n u := hwho
        cases hev
        obtain ⟨r', -, -, ⟨-, hsend⟩ | ⟨-, -, hunsent⟩⟩ := hmay
        · cases hsend _ hold
        · exact absurd hold (hunsent _ _ _)
    · obtain rfl : who = .caller n u := hwho
      cases hev
      obtain ⟨r, -, -, -, -, hun, -⟩ := hmay
      refine ⟨r, fun d ans hd => ?_⟩
      obtain hd | ⟨-, hev⟩ := journal_cases hd
      · exact hun d ans hd
      · cases hev

theorem puts_of_accepted {s₀ : Cloud}
    (h : (pipeline ext config staff).Reach G (Machine.initial s₀) c) {n : Nat} {u : Upload}
    {r : JobRecord} (hret : c.thread (.caller n u) = .running (.ret (.ok (.record r)))) :
    Story (.build config) ext u r (journalOf (.caller n u) c.log) ∧
      Stored (.build config) u r (journalOf (.caller n u) c.log) ∧
      Recorded r (journalOf (.caller n u) c.log) ∧
      Uncompensated r (journalOf (.caller n u) c.log) := by
  obtain ⟨hstory, hst, hrec, attributes, mid, hsent⟩ :=
    h.post (pipelineDiscipline ext config staff) hret
  obtain ⟨r₀, hun⟩ := puts_of_sent h hsent
  have heq : JobTable.recordItem r = JobTable.recordItem r₀ := hun _ _ hrec
  exact ⟨hstory, hst, hrec, fun d ans hd => (hun d ans hd).trans heq.symm⟩

theorem put_of_uncompensated
    (h : (pipeline ext config staff).Reach G (Machine.initial Cloud.empty) c) {e : LogEntry}
    {d : PyDict} {it : Item} {n : Nat} {u : Upload} {r : JobRecord}
    (hq : e.req = .putItem d)
    (hmay : processMay ext config e.who (history e.who c.log) (.putItem d))
    (hd : serializeDict d = .ok it) (hj : itemKey it = some r.jobId)
    (hdrawn : drawOk r.jobId ∈ journalOf (.caller n u) c.log)
    (hun : Uncompensated r (journalOf (.caller n u) (e :: c.log))) :
    e.who = .caller n u ∧ d = JobTable.recordItem r := by
  obtain ⟨hwho, -⟩ := put_backed h hmay hd hj hdrawn
  obtain ⟨who, s, q, ch, ans⟩ := e
  obtain rfl : q = .putItem d := hq
  obtain rfl : who = .caller n u := hwho
  exact ⟨rfl, hun d ans (journal_of_entry (e := ⟨.caller n u, s, _, ch, ans⟩)
    List.mem_cons_self rfl)⟩

theorem uncompensated_of_cons {e : LogEntry} {i : Proc} {r : JobRecord}
    (h : Uncompensated r (journalOf i (e :: c.log))) : Uncompensated r (journalOf i c.log) :=
  fun d ans hd => h d ans (journal_mono e hd)

/-- **What no update sets stays as the upload recorded it.** -/
theorem untouched_attributes
    (h : (pipeline ext config staff).Reach G (Machine.initial Cloud.empty) c) {n : Nat} {u : Upload}
    {r : JobRecord} (hdrawn : drawOk r.jobId ∈ journalOf (.caller n u) c.log)
    (hrec : Recorded r (journalOf (.caller n u) c.log))
    (hun : Uncompensated r (journalOf (.caller n u) c.log)) :
    ∃ it it₁, c.state.table r.jobId = some it ∧
      serializeDict (JobTable.recordItem r) = .ok it₁ ∧
      ∀ a, a ∉ measured → a ∉ rendered → a ≠ "error" → it.get a = Item.get it₁ a := by
  revert hdrawn hrec hun
  refine pipeline_invariant (P := fun s log => drawOk r.jobId ∈ journalOf (.caller n u) log →
    Recorded r (journalOf (.caller n u) log) → Uncompensated r (journalOf (.caller n u) log) →
      ∃ it it₁, s.table r.jobId = some it ∧ serializeDict (JobTable.recordItem r) = .ok it₁ ∧
        ∀ a, a ∉ measured → a ∉ rendered → a ≠ "error" → it.get a = Item.get it₁ a) ?_ ?_ ?_ h
  · intro hdrawn
    cases hdrawn
  · exact fun _ _ _ _ hP _ _ => hP
  · intro c e s' hr hP hbefore _ hmay hp _ hdrawn hrec hun
    obtain hdrew | ⟨hwho, hev⟩ := journal_cases hdrawn
    · obtain hold | ⟨hwho, hev⟩ := journal_cases hrec
      · obtain ⟨it, it₁, htable, hd, hsame⟩ := hP hdrew hold (uncompensated_of_cons hun)
        rw [← hbefore] at htable
        cases itemStep hp r.jobId with
        | same hs => exact ⟨it, it₁, hs.trans htable, hd, hsame⟩
        | @update up it' hq ha hs hm =>
          rw [hq] at hmay
          rw [htable] at ha
          obtain ⟨_, _, _, _, -, -, -, -, hdue⟩ := processMay_update hmay
          refine ⟨it', it₁, hs, hd, fun a hm hr he => ?_⟩
          obtain ⟨hset, hrem⟩ := untouched_keys hdue.known hm hr he
          rw [Update.get_apply_of_not_mem ha hset hrem]
          exact hsame a hm hr he
        | put hq hd' hj hs =>
          rw [hq] at hmay
          obtain ⟨-, rfl⟩ := put_of_uncompensated hr hq hmay hd' hj hdrew hun
          exact ⟨_, _, hs, hd', fun _ _ _ _ => rfl⟩
      · obtain ⟨it, j, hd, hj, htable⟩ := stored_of_recordedOk hp hev.symm
        have hq : e.req = .putItem _ := congrArg Sigma.fst hev.symm
        rw [hq] at hmay
        obtain rfl := key_of_put hmay hd hj (hwho ▸ hdrew)
        exact ⟨it, it, htable, hd, fun _ _ _ _ => rfl⟩
    · cases only_drawn hmay hwho hev hrec

theorem IsNew.pending {u : Upload} {r : JobRecord} (h : IsNew ext u r) :
    r.Plain ∧ r.status = .pending := by
  obtain ⟨probe, jobId, traceId, createdAt, updatedAt, rfl⟩ := h
  exact ⟨newRecord_plain ext u probe jobId traceId createdAt updatedAt, rfl⟩

/-- The record of an upload that never compensated shows `started_at` once a worker has won. -/
theorem started_of_won (h : (pipeline ext config staff).Reach G (Machine.initial Cloud.empty) c)
    {n k : Nat} {u : Upload} {r : JobRecord} {own : Config} {msg : RawMessage} {job : JobMessage}
    (hnew : IsNew ext u r) (hjob : msg.job? ext = some job) (hj : job.jobId = r.jobId)
    (hdrawn : drawOk r.jobId ∈ journalOf (.caller n u) c.log)
    (hun : Uncompensated r (journalOf (.caller n u) c.log))
    (hwon : Won job (journalOf (.worker k own msg) c.log)) :
    ∃ it, c.state.table r.jobId = some it ∧ (it.get "started_at").isSome = true := by
  have hset : ∀ {now it' pre}, (processingUpdate now).apply r.jobId pre = .ok it' →
      (Item.get it' "started_at").isSome = true := by
    intro now it' pre ha
    have hu : (processingUpdate now).Known := .processing now
    rw [Update.get_apply_str ha hu.nodup (hu.kept (by decide)) rfl]
    rfl
  revert hdrawn hun hwon
  refine pipeline_invariant (P := fun s log => drawOk r.jobId ∈ journalOf (.caller n u) log →
    Uncompensated r (journalOf (.caller n u) log) → Won job (journalOf (.worker k own msg) log) →
      ∃ it, s.table r.jobId = some it ∧ (it.get "started_at").isSome = true) ?_ ?_ ?_ h
  · intro hdrawn
    cases hdrawn
  · exact fun _ _ _ _ hP _ _ => hP
  · intro c e s' hr hP hbefore hrun hmay hp _ hdrawn hun hwon
    obtain ⟨now, hv⟩ := hwon
    obtain hold | ⟨hwho, hev⟩ := journal_cases hv
    · obtain ⟨m, u', r', hs, hmsg⟩ := job_of_started hr (started_of_journal hr hold)
      obtain rfl := Option.some.inj (hmsg.symm.trans hjob)
      have hid : r'.jobId = r.jobId := hj
      obtain hdrew | ⟨-, hev⟩ := journal_cases hdrawn
      · obtain ⟨it, htable, hsome⟩ := hP hdrew (uncompensated_of_cons hun) ⟨now, hold⟩
        rw [← hbefore] at htable
        cases itemStep hp r.jobId with
        | same hsame => exact ⟨it, hsame.trans htable, hsome⟩
        | @update up it' hq ha hst hm =>
          rw [hq] at hmay
          obtain ⟨_, _, _, _, -, -, -, -, hdue⟩ := processMay_update hmay
          rw [htable] at ha
          refine ⟨it', hst, ?_⟩
          cases hdue with
          | processing now' => exact hset ha
          | complete ms now' =>
            rwa [Update.get_apply_of_not_mem ha (by rw [completeUpdate_keys]; decide)
              (by simp [completeUpdate])]
          | failed reason now' =>
            rwa [Update.get_apply_of_not_mem ha (by rw [failedUpdate_keys]; decide)
              List.not_mem_nil]
        | put hq hd hkey hst =>
          rw [hq] at hmay
          obtain ⟨hwho, rfl⟩ := put_of_uncompensated hr hq hmay hd hkey hdrew hun
          obtain ⟨_, _, r₀, r₁, hi, -, -, hstored, -, -, hwhy⟩ := processMay_put hmay hd
          obtain ⟨-, hnone⟩ | ⟨hfail, -⟩ := hwhy
          · -- a first record is put before anything was sent
            have hsame := same_drawer hr hdrew (hid ▸ hs.drawn)
            obtain ⟨v, hv, attributes, hsend⟩ := hs.sent
            have hno := hnone v (hwho ▸ hsame ▸ hv)
            rw [hsend] at hno
            cases hno
          · have hpending := (hnew.pending.1.storedAs hd : r.StoredAs ext.intOfStr _).status
            rw [hstored.status, hfail, hnew.pending.2] at hpending
            cases hpending
      · exact absurd (hid ▸ hs.drawn) (fresh_draw hr hbefore hp hev.symm)
    · obtain ⟨-, it, ha, htable⟩ := moved_of_updateOk hp hev.symm
      rw [hj] at ha htable
      exact ⟨it, htable, hset ha⟩

/-! ## The queue -/

theorem no_empty_id (h : (pipeline ext config staff).Reach G (Machine.initial Cloud.empty) c) :
    c.state.queue "" = none := by
  refine pipeline_invariant (P := fun s _ => s.queue "" = none) rfl ?_ ?_ h
  · intro s log mid m hP hm _
    rw [Cloud.setMessage_queue]
    split
    · rename_i hid
      rw [← hid, hP] at hm
      cases hm
    · exact hP
  · intro c e s' _ hP hbefore _ _ hp _
    rw [← hbefore] at hP
    obtain ⟨who, s, q, ch, ans⟩ := e
    obtain rfl | he := Cloud.perform_effect hp
    · exact hP
    · cases he with
      | @send body attributes mid hne hm =>
        rw [Cloud.setMessage_queue, if_neg (Ne.symm hne)]
        exact hP
      | @delete mid m hm =>
        rw [Cloud.setMessage_queue]
        split
        · rename_i hid
          rw [← hid] at hm
          exact absurd hm (by rw [show s.queue "" = none from hP]; simp)
        · exact hP
      | object => exact hP
      | put => exact hP
      | update => exact hP
      | draw => exact hP

theorem deleted_keeps {e : LogEntry} {s' : Cloud} {mid : String} {m : QueuedMessage}
    (hp : e.before.perform ext e.req e.choice = some (e.resp, s'))
    (hm : e.before.queue mid = some m) (hdel : m.place = .deleted) :
    ∃ m', s'.queue mid = some m' ∧ m'.place = .deleted := by
  obtain ⟨who, s, q, ch, ans⟩ := e
  obtain rfl | he := Cloud.perform_effect hp
  · exact ⟨m, hm, hdel⟩
  · cases he with
    | @send body attributes mid' hne hnone =>
      rw [Cloud.setMessage_queue]
      split
      · rename_i hid
        rw [← hid] at hnone
        exact absurd (hm.symm.trans hnone) (by simp)
      · exact ⟨m, hm, hdel⟩
    | delete =>
      rw [Cloud.setMessage_queue]
      split
      · exact ⟨_, rfl, rfl⟩
      · exact ⟨m, hm, hdel⟩
    | object => exact ⟨m, hm, hdel⟩
    | put => exact ⟨m, hm, hdel⟩
    | update => exact ⟨m, hm, hdel⟩
    | draw => exact ⟨m, hm, hdel⟩

theorem gone_of_deleteOk (h : (pipeline ext config staff).Reach G (Machine.initial Cloud.empty) c)
    {n : Nat} {own : Config} {msg : RawMessage}
    (hv : deleteOk msg.receipt ∈ journalOf (.worker n own msg) c.log) :
    ∃ m, c.state.queue msg.receipt = some m ∧ m.place = .deleted := by
  revert hv
  refine pipeline_invariant (P := fun s log =>
    deleteOk msg.receipt ∈ journalOf (.worker n own msg) log →
      ∃ m, s.queue msg.receipt = some m ∧ m.place = .deleted) ?_ ?_ ?_ h
  · intro hv
    cases hv
  · intro s log mid m hP hm hplace hv
    obtain ⟨m', hm', hdel⟩ := hP hv
    rw [Cloud.setMessage_queue]
    split
    · rename_i hid
      rw [hid] at hm'
      obtain rfl := Option.some.inj (hm.symm.trans hm')
      rw [hplace] at hdel
      cases hdel
    · exact ⟨m', hm', hdel⟩
  · intro c e s' hr hP hbefore hrun _ hp _ hv
    obtain hold | ⟨hwho, hev⟩ := journal_cases hv
    · obtain ⟨m, hm, hdel⟩ := hP hold
      exact deleted_keeps hp (hbefore ▸ hm) hdel
    · obtain ⟨mid, m, hmid, hm, -⟩ := message_of_started hr (hwho ▸ hrun)
      have hreceipt : msg.receipt = mid := by rw [RawMessage.receipt, hmid, Option.getD_some]
      rw [hreceipt] at hev ⊢
      obtain ⟨who, s, q, ch, ans⟩ := e
      obtain rfl : s = c.state := hbefore
      cases hev
      have hserve := Cloud.perform_ok hp
      simp only [Cloud.serve] at hserve
      split at hserve
      · obtain ⟨-, rfl⟩ := Prod.mk.inj (Option.some.inj hserve)
        exact ⟨_, by rw [Cloud.setMessage_queue, if_pos rfl], rfl⟩
      · rename_i hnone
        exact absurd (hm.symm.trans hnone) (by simp)

/-! ## Objects under an output prefix -/

/-- Whether a key is under `outputs/{job_id}/`. -/
def UnderOutputs (j k : String) : Prop := ∃ rest, k = "outputs/" ++ j ++ "/" ++ rest

theorem not_underOutputs_inputKey (j j' x : String) :
    ¬ UnderOutputs j (JobService.inputKey j' x) := by
  rintro ⟨rest, h⟩
  have hl := congrArg (fun s => s.toList.head?) h
  simp [JobService.inputKey] at hl

theorem eq_of_underOutputs {j j' : String} {size : Nat} (hj : isUuid j = true)
    (hj' : isUuid j' = true) (h : UnderOutputs j (outputKey j' size)) : j' = j := by
  obtain ⟨rest, h⟩ := h
  have hl := congrArg String.toList h
  simp only [outputKey, String.toList_append, List.append_assoc] at hl
  have hlen : j'.toList.length = j.toList.length := by
    rw [length_of_isUuid hj, length_of_isUuid hj']
  exact String.toList_inj.mp (List.append_inj (List.append_inj hl rfl).2 hlen).1

/-- Every object is an original or a thumbnail of a configured size. -/
theorem object_origin (hown : ∀ n own msg, staff (.worker n own msg) = true → own = config)
    (h : (pipeline ext config staff).Reach G (Machine.initial Cloud.empty) c) {b k : String}
    {o : Object} (ho : c.state.objects b k = some o) :
    (∃ j x, k = JobService.inputKey j x) ∨
      ∃ j size, isUuid j = true ∧ size ∈ config.thumbnailSizes ∧ k = outputKey j size := by
  revert ho
  refine pipeline_invariant (P := fun s _ => s.objects b k = some o →
    (∃ j x, k = JobService.inputKey j x) ∨
      ∃ j size, isUuid j = true ∧ size ∈ config.thumbnailSizes ∧ k = outputKey j size) ?_ ?_ ?_ h
  · intro ho
    cases ho
  · exact fun _ _ _ _ hP _ _ => hP
  · intro c e s' hr hP hbefore hrun hmay hp _ ho
    rw [← hbefore] at hP
    obtain ⟨who, s, q, ch, ans⟩ := e
    obtain rfl | he := Cloud.perform_effect hp
    · exact hP ho
    · cases he with
      | @object b' k' body ct =>
        rw [Cloud.setObject_objects] at ho
        split at ho
        · rename_i heq
          obtain ⟨rfl, rfl⟩ := heq
          cases who with
          | caller n u =>
            obtain ⟨r, hstory, -, -, hk, -⟩ := hmay
            obtain ⟨x, hx⟩ := hstory.new.inputKey
            exact .inl ⟨r.jobId, x, hk.trans hx⟩
          | worker n own msg =>
            obtain ⟨m, u, r, size, enc, hs, -, -, hk, hsize, -⟩ :=
              processMay_upload hown hr hrun hmay
            exact .inr ⟨r.jobId, size, hs.uuid hr, hsize, hk⟩
        · exact hP ho
      | put => exact hP ho
      | update => exact hP ho
      | send => exact hP ho
      | delete => exact hP ho
      | draw => exact hP ho

end Runs

end PixelForge
