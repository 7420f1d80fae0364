import PixelForge.Pipeline.Backing

/-! # What a `COMPLETE` record points at

Every worker has the same configuration and rendering is a fixed function. What a worker downloads
is the original of its job (`fetched_original`), so every upload under an output key writes the
same bytes there (`uploaded_stays`), whichever runs overlap. A record becomes `COMPLETE` by the
update of a run that has uploaded all its outputs (`complete_produced`).
-/
set_option autoImplicit false

namespace PixelForge
open Effects

section Runs

variable {ext : Externals} {config : Config} {staff : Proc → Bool} {G : PipeGuard} {c : Pipe}

theorem SentBy.uuid (h : (pipeline ext config staff).Reach G (Machine.initial Cloud.empty) c)
    {n : Nat} {u : Upload} {r : JobRecord} (hs : SentBy ext config c.log n u r) :
    isUuid r.jobId = true := uuid_of_drawn h hs.drawn

theorem SentBy.unique (h : (pipeline ext config staff).Reach G (Machine.initial Cloud.empty) c)
    {n n' : Nat} {u u' : Upload} {r r' : JobRecord} (hs : SentBy ext config c.log n u r)
    (hs' : SentBy ext config c.log n' u' r') (hj : r'.jobId = r.jobId) :
    u' = u ∧ r'.inputKey = r.inputKey := by
  obtain ⟨rfl, rfl⟩ := Proc.caller.inj (same_drawer h hs.drawn (hj ▸ hs'.drawn))
  obtain ⟨r₀, hstory⟩ := story_of_mem h hs.stored
  exact ⟨rfl, (hstory.inputKey_eq hs'.stored).trans (hstory.inputKey_eq hs.stored).symm⟩

variable (hown : ∀ n own msg, staff (.worker n own msg) = true → own = config)

/-- **What a worker downloads is the original of its job.** -/
theorem fetched_original (h : (pipeline ext config staff).Reach G (Machine.initial Cloud.empty) c)
    {n : Nat} {own : Config} {msg : RawMessage} {job : JobMessage} {data : Bytes}
    (hjob : msg.job? ext = some job)
    (hv : fetchOk config.s3Bucket job.inputKey data ∈ journalOf (.worker n own msg) c.log) :
    ∃ k u r, SentBy ext config c.log k u r ∧ job = (JobService.build config).newMessage r ∧
      data = u.data := by
  revert hv
  refine pipeline_invariant (P := fun _ log =>
    fetchOk config.s3Bucket job.inputKey data ∈ journalOf (.worker n own msg) log →
    ∃ k u r, SentBy ext config log k u r ∧ job = (JobService.build config).newMessage r ∧
      data = u.data) ?_ ?_ ?_ h
  · intro hv
    cases hv
  · exact fun _ _ _ _ hP _ _ => hP
  · intro c e s' hr hP hbefore hrun _ hp _ hv
    obtain hold | ⟨hwho, hev⟩ := journal_cases hv
    · obtain ⟨k, u, r, hs, hmsg, hdata⟩ := hP hold
      exact ⟨k, u, r, hs.mono e, hmsg, hdata⟩
    · obtain ⟨k, u, r, hs, hmsg⟩ := job_of_started hr (hwho ▸ hrun)
      obtain rfl := Option.some.inj (hmsg.symm.trans hjob)
      refine ⟨k, u, r, hs.mono e, rfl, ?_⟩
      have hobj := (hs.backed hr).2
      obtain ⟨who, s, q, ch, ans⟩ := e
      cases hev
      obtain rfl : s = c.state := hbefore
      have hserve := Cloud.perform_ok hp
      simp only [Cloud.serve] at hserve
      split at hserve
      · rename_i o ho
        obtain ⟨hdata, -⟩ := Prod.mk.inj (Option.some.inj hserve)
        obtain rfl : o = ⟨u.data, r.contentType⟩ := Option.some.inj (ho.symm.trans hobj)
        exact (Except.ok.inj hdata).symm
      · cases (Prod.mk.inj (Option.some.inj hserve)).1

include hown in
theorem config_of_started (h : (pipeline ext config staff).Reach G (Machine.initial Cloud.empty) c)
    {n : Nat} {own : Config} {msg : RawMessage} (hi : c.thread (.worker n own msg) ≠ .idle) :
    own = config :=
  hown n own msg (admitted_of_started h hi)

/-- What is stored under an output key of a job. -/
def StoresRendering (ext : Externals) (config : Config) (s : Cloud) (j : String) (data : Bytes)
    (size : Nat) (body : Bytes) : Prop :=
  ∃ enc, ext.Renders data size enc ∧ enc.data = body ∧
    s.objects config.s3Bucket (outputKey j size) = some ⟨body, thumbnailContentType⟩

include hown in
/-- What a worker may upload is the rendering of its job's original under the key of its size. -/
theorem processMay_upload
    (h : (pipeline ext config staff).Reach G (Machine.initial Cloud.empty) c) {n : Nat}
    {own : Config} {msg : RawMessage} {b k ct : String} {body : Bytes}
    (hi : c.thread (.worker n own msg) ≠ .idle)
    (hmay : processMay ext config (.worker n own msg) (history (.worker n own msg) c.log)
      (.putObject b k body ct)) :
    ∃ m u r size enc, SentBy ext config c.log m u r ∧
      msg.job? ext = some ((JobService.build config).newMessage r) ∧ b = config.s3Bucket ∧
      k = outputKey r.jobId size ∧ size ∈ config.thumbnailSizes ∧ ext.Renders u.data size enc ∧
      body = enc.data ∧ ct = thumbnailContentType := by
  obtain rfl := config_of_started hown h hi
  obtain ⟨job, data, th, hjob, -, hfetch, hrend, rfl, rfl, rfl, rfl⟩ := hmay
  obtain ⟨m, u, r, hs, rfl, rfl⟩ := fetched_original h hjob hfetch
  exact ⟨m, u, r, th.size, _, hs, hjob, rfl, rfl, hrend.size, hrend.renders, rfl, rfl⟩

include hown in
/-- **What a worker has uploaded stays**, whoever uploads under the same key afterwards. -/
theorem uploaded_stays (hfix : ext.Fixed)
    (h : (pipeline ext config staff).Reach G (Machine.initial Cloud.empty) c) {n : Nat}
    {own : Config} {msg : RawMessage} {job : JobMessage} {size : Nat} {body : Bytes} {ct : String}
    (hjob : msg.job? ext = some job)
    (hv : putOk config.s3Bucket (outputKey job.jobId size) body ct ∈
      journalOf (.worker n own msg) c.log) :
    ∃ k u r, SentBy ext config c.log k u r ∧ job = (JobService.build config).newMessage r ∧
      StoresRendering ext config c.state job.jobId u.data size body := by
  revert hv
  refine pipeline_invariant (P := fun s log =>
    putOk config.s3Bucket (outputKey job.jobId size) body ct ∈ journalOf (.worker n own msg) log →
    ∃ k u r, SentBy ext config log k u r ∧ job = (JobService.build config).newMessage r ∧
      StoresRendering ext config s job.jobId u.data size body) ?_ ?_ ?_ h
  · intro hv
    cases hv
  · exact fun _ _ _ _ hP _ _ => hP
  · intro c e s' hr hP hbefore hrun hmay hp _ hv
    obtain ⟨who, s, q, ch, ans⟩ := e
    obtain rfl : s = c.state := hbefore
    obtain hold | ⟨hwho, hev⟩ := journal_cases hv
    · obtain ⟨k, u, r, hs, rfl, enc, hrend, hbody, hobj⟩ := hP hold
      refine ⟨k, u, r, hs.mono _, rfl, enc, hrend, hbody, ?_⟩
      obtain rfl | he := Cloud.perform_effect hp
      · exact hobj
      · cases he with
        | @object b' k' body' ct' =>
          rw [Cloud.setObject_objects]
          split
          · rename_i heq
            obtain ⟨rfl, rfl⟩ := heq
            cases who with
            | caller n' u' =>
              obtain ⟨r', hstory', -, -, hk', -⟩ := hmay
              obtain ⟨x, hx⟩ := hstory'.new.inputKey
              exact absurd (hx ▸ hk'.symm) (inputKey_ne_outputKey _ _ _ _)
            | worker n' own' msg' =>
              obtain ⟨k', u', r', size', enc', hs', -, -, hkey, -, hrend', hbody', hct'⟩ :=
                processMay_upload hown hr hrun hmay
              obtain ⟨hj, rfl⟩ := outputKey_inj hkey
              obtain ⟨rfl, -⟩ := hs.unique hr hs' hj.symm
              rw [hbody', hct', hfix.renders_eq hrend' hrend, hbody]
          · exact hobj
        | put => exact hobj
        | update => exact hobj
        | send => exact hobj
        | delete => exact hobj
        | draw => exact hobj
    · obtain rfl : who = .worker n own msg := hwho
      cases hev
      obtain ⟨k', u', r', size', enc', hs', hmsg, -, hkey, -, hrend', hbody', hct'⟩ :=
        processMay_upload hown hr hrun hmay
      obtain rfl := Option.some.inj (hmsg.symm.trans hjob)
      obtain ⟨-, rfl⟩ := outputKey_inj hkey
      refine ⟨k', u', r', hs'.mono _, rfl, enc', hrend', hbody'.symm, ?_⟩
      obtain ⟨-, rfl⟩ := Prod.mk.inj (Option.some.inj (Cloud.perform_ok hp))
      rw [Cloud.setObject_objects, if_pos ⟨rfl, rfl⟩, hct']

/-- The update that completed a record: the run that asked for it had produced what it records. -/
structure CompletedWith (ext : Externals) (config : Config) (log : Log) (job : JobMessage)
    (p : ProcessedOutputs) (it : Item) (msg : RawMessage) (n : Nat) (data : Bytes) (pic : Picture)
    (thumbs : List RenderedThumbnail) : Prop where
  decoded : msg.job? ext = some job
  won : Won job (journalOf (.worker n config msg) log)
  produced : Produced (.build config) ext job (journalOf (.worker n config msg) log) p data pic
    thumbs
  applied : ∃ ms now pre, (completeUpdate p ms now).apply job.jobId pre = .ok it

theorem CompletedWith.mono {log : Log} {job : JobMessage} {p : ProcessedOutputs} {it : Item}
    {msg : RawMessage} {n : Nat} {data : Bytes} {pic : Picture} {thumbs : List RenderedThumbnail}
    (h : CompletedWith ext config log job p it msg n data pic thumbs) (e : LogEntry) :
    CompletedWith ext config (e :: log) job p it msg n data pic thumbs where
  decoded := h.decoded
  won := h.won.mono fun _ hv => journal_mono e hv
  produced := h.produced.mono fun _ hv => journal_mono e hv
  applied := h.applied

include hown in
/-- **A `COMPLETE` record was written by a run that had uploaded all its outputs.** -/
theorem complete_produced (h : (pipeline ext config staff).Reach G (Machine.initial Cloud.empty) c)
    {j : String} (hst : c.state.status j = some .complete) :
    ∃ it job p msg n data pic thumbs, c.state.table j = some it ∧ job.jobId = j ∧
      CompletedWith ext config c.log job p it msg n data pic thumbs := by
  revert hst
  refine pipeline_invariant (P := fun s log => s.status j = some .complete →
    ∃ it job p msg n data pic thumbs, s.table j = some it ∧ job.jobId = j ∧
      CompletedWith ext config log job p it msg n data pic thumbs) ?_ ?_ ?_ h
  · intro hst
    cases hst
  · exact fun _ _ _ _ hP _ _ => hP
  · intro c e s' hr hP hbefore hrun hmay hp _ hst
    cases itemStep hp j with
    | same hs =>
      have hst' : c.state.status j = some .complete := by
        rw [← hst, Cloud.status, Cloud.status, hs, hbefore]
      obtain ⟨it, job, p, msg, n, data, pic, thumbs, htable, hj, hc⟩ := hP hst'
      exact ⟨it, job, p, msg, n, data, pic, thumbs, by rw [hs, hbefore, htable], hj, hc.mono e⟩
    | @update up it hq ha hs hm =>
      rw [hq] at hmay
      obtain ⟨n, own, msg, job, hi, hjob, rfl, -, hdue⟩ := processMay_update hmay
      have htarget : up.target = some .complete := by
        rw [← hst, Cloud.status, hs, Option.bind_some, hdue.known.status ha]
      obtain rfl := config_of_started hown hr (hi ▸ hrun)
      cases hdue with
      | processing now => cases htarget
      | failed reason now => cases htarget
      | @complete p data pic thumbs ms now hwon hprod =>
        have hsub : ∀ v ∈ journal (history e.who c.log),
            v ∈ journalOf (.worker n own msg) (e :: c.log) := fun _ hv => journal_mono e (hi ▸ hv)
        exact ⟨it, job, p, msg, n, data, pic, thumbs, hs, rfl, hjob, hwon.mono hsub,
          hprod.mono hsub, ms, now, _, ha⟩
    | put hq hd hj hs =>
      rw [hq] at hmay
      obtain ⟨_, _, r, r', -, -, -, hstored, -, -, hwhy⟩ := processMay_put hmay hd
      rw [Cloud.status, hs, Option.bind_some, hstored.status] at hst
      obtain ⟨hst', -⟩ | ⟨hst', -⟩ := hwhy <;> rw [hst'] at hst <;> cases hst

/-! ## The outputs of a record -/

theorem lookup_of_mem {α : Type} {k : String} {v : α} {kvs : List (String × α)}
    (hn : (kvs.map Prod.fst).Nodup) (h : (k, v) ∈ kvs) : kvs.lookup k = some v := by
  induction kvs with
  | nil => cases h
  | cons kv kvs ih =>
    obtain ⟨k', v'⟩ := kv
    rw [List.map_cons, List.nodup_cons] at hn
    obtain heq | htail := List.mem_cons.mp h
    · cases heq
      exact List.lookup_cons_self
    · have hne : (k == k') = false := by
        rw [beq_eq_false_iff_ne]
        rintro rfl
        exact hn.1 (List.mem_map.mpr ⟨_, htail, rfl⟩)
      rw [List.lookup_cons, hne]
      exact ih hn.2 htail

/-- The keys of the outputs are the decimal strings of the configured sizes. -/
theorem Produced.keys {w : Worker} {job : JobMessage} {t : List Ev} {p : ProcessedOutputs}
    {data : Bytes} {pic : Picture} {thumbs : List RenderedThumbnail}
    (h : Produced w ext job t p data pic thumbs) :
    p.outputs.map Prod.fst = (sortedSizes w.config.thumbnailSizes).map toString := by
  rw [h.eq, ← h.sizes, List.map_map, List.map_map]
  rfl

theorem nodup_sizeKeys (sizes : List Nat) : ((sortedSizes sizes).map toString).Nodup :=
  (nodup_sortedSizes sizes).map fun _ _ h => toString_nat_inj h

theorem Produced.exists_thumb {w : Worker} {job : JobMessage} {t : List Ev} {p : ProcessedOutputs}
    {data : Bytes} {pic : Picture} {thumbs : List RenderedThumbnail}
    (h : Produced w ext job t p data pic thumbs) {size : Nat}
    (hsize : size ∈ w.config.thumbnailSizes) : ∃ th ∈ thumbs, th.size = size := by
  rw [← mem_sortedSizes, ← h.sizes] at hsize
  exact List.mem_map.mp hsize

/-- What `mark_complete` stores is read back as the outputs it was given. -/
theorem outputs_of_completed {intOfStr : String → Option Int} {p : ProcessedOutputs} {ms : Int}
    {now j : String} {pre : Option Item} {it : Item} {record : JobRecord}
    (ha : (completeUpdate p ms now).apply j pre = .ok it) (hx : ∀ kv ∈ p.outputs, kv.2.extra = [])
    (hdec : Decodes intOfStr it record) : record.outputs = some p.outputs := by
  have hu : (completeUpdate p ms now).Known := .complete p ms now
  have hget := Update.get_apply ha hu.nodup "outputs"
  rw [if_neg (hu.kept (by decide))] at hget
  obtain ⟨w, hw, hout⟩ := hget
  obtain ⟨kvs, hkvs, rfl⟩ := ok_of_map_ok hw
  rw [hdec.outputs kvs hout]
  exact Outputs.roundtrip hx hkvs

include hown in
/-- **A `COMPLETE` record never points at missing or different outputs.** -/
theorem complete_outputs (hfix : ext.Fixed)
    (h : (pipeline ext config staff).Reach Machine.always (Machine.initial Cloud.empty) c)
    {j : String} (hst : c.state.status j = some .complete) :
    ∃ it record outputs original, c.state.table j = some it ∧
      JobTable.decodeItem ext.intOfStr (some it) = .ok (some record) ∧
      c.state.objects config.s3Bucket record.inputKey = some original ∧
      record.outputs = some outputs ∧
      outputs.map Prod.fst = (sortedSizes config.thumbnailSizes).map toString ∧
      (outputs.map Prod.fst).Nodup ∧
      ∀ size ∈ config.thumbnailSizes, ∃ out enc, outputs.lookup (toString size) = some out ∧
        out.size = size ∧ out.key = outputKey j size ∧ ext.Renders original.body size enc ∧
        (c.state.objects config.s3Bucket out.key).map (·.body) = some enc.data ∧
        out.bytes = enc.data.length := by
  obtain ⟨it, job, p, msg, n, data, pic, thumbs, htable, rfl, hc⟩ := complete_produced hown h hst
  obtain ⟨k, u, r, hs, rfl, rfl⟩ := fetched_original h hc.decoded hc.produced.fetched
  obtain ⟨⟨it', htable', htyped, -, hkey⟩, hobj⟩ := hs.backed h
  obtain rfl : it' = it := Option.some.inj (htable'.symm.trans htable)
  obtain ⟨record, hrecord, hdec⟩ := htyped.decodeItem
  obtain ⟨ms, now, pre, ha⟩ := hc.applied
  have hx : ∀ kv ∈ p.outputs, kv.2.extra = [] := by
    intro kv hkv
    rw [hc.produced.eq] at hkv
    obtain ⟨th, -, rfl⟩ := List.mem_map.mp hkv
    rfl
  have hkeys := hc.produced.keys
  have hnodup : (p.outputs.map Prod.fst).Nodup := hkeys ▸ nodup_sizeKeys _
  have hinput : record.inputKey = r.inputKey :=
    AttrValue.s.inj (Option.some.inj (hdec.inputKey.symm.trans hkey))
  refine ⟨it', record, p.outputs, _, htable, hrecord, hinput ▸ hobj,
    outputs_of_completed ha hx hdec, hkeys, hnodup, fun size hsize => ?_⟩
  obtain ⟨th, hth, rfl⟩ := hc.produced.exists_thumb hsize
  have hmem : (toString th.size, (Worker.thumbnailOutput r.jobId th).2) ∈ p.outputs := by
    rw [hc.produced.eq]
    exact List.mem_map.mpr ⟨th, hth, rfl⟩
  obtain ⟨k', u', r', hs', hmsg, enc, hrend, hbody, hstored⟩ :=
    uploaded_stays hown hfix h hc.decoded (hc.produced.uploads th hth)
  have hj : r'.jobId = r.jobId := (congrArg JobMessage.jobId hmsg).symm
  obtain ⟨rfl, -⟩ := hs.unique h hs' hj
  refine ⟨_, enc, lookup_of_mem hnodup hmem, rfl, rfl, hrend, ?_, ?_⟩
  · rw [show (Worker.thumbnailOutput r.jobId th).2.key = outputKey r.jobId th.size from rfl]
    rw [hbody]
    exact congrArg (Option.map (·.body)) hstored
  · rw [hbody]
    rfl

end Runs

section Scene
open Surroundings

theorem own_of_colleague (n : Nat) (own : Config) (msg : RawMessage)
    (h : colleague (.worker n own msg) = true) : own = config := eq_of_beq h

theorem complete_outputs_completed : ∃ outputs : Outputs,
    (outputs.map Prod.fst).Nodup ∧ outputs.map Prod.fst = ["150", "400"] ∧
    ∃ out enc, outputs.lookup "400" = some out ∧ out.key = outputKey jobId 400 ∧
      ((scene.played (pair goodUpload) (going 0 24)).state.objects config.s3Bucket out.key).map
        (·.body) = some (Encoded.data enc) ∧ out.bytes = (Encoded.data enc).length := by
  have hst : (scene.played (pair goodUpload) (going 0 24)).state.status jobId = some .complete := by
    decide +kernel
  obtain ⟨it, record, outputs, original, -, -, -, -, hkeys, hnodup, hall⟩ :=
    complete_outputs own_of_colleague small_fixed ((reach_pair accepted_good_queue).played _) hst
  obtain ⟨out, enc, hlookup, -, hkey, -, hobj, hbytes⟩ := hall 400 (by decide)
  exact ⟨outputs, hnodup, hkeys.trans (by decide), out, enc, hlookup, hkey, hobj, hbytes⟩

end Scene

end PixelForge
