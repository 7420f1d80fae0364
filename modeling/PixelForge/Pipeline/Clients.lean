import PixelForge.Api.JobIds
import PixelForge.Pipeline.Accepted
import PixelForge.Pipeline.Deployment
import PixelForge.Pipeline.Outputs

/-! # What a client gets

A client posts an upload and, once it has been answered, looks up the job id it was given. Whatever
else goes on in the deployment in between, it finds the job of its own upload; and when the job is
complete, the thumbnails that the answer names are there, and are renderings of what it has posted.
-/
set_option autoImplicit false

namespace PixelForge
open Effects

/-! ## Records that are read back -/

/-- What no update of a worker changes, as a lookup reads it. -/
structure Retold (r record : JobRecord) : Prop where
  jobId : record.jobId = r.jobId
  createdAt : record.createdAt = r.createdAt
  filename : record.filename = r.filename
  sizeBytes : record.sizeBytes = r.sizeBytes
  contentType : record.contentType = r.contentType
  inputKey : record.inputKey = r.inputKey

section Reading

variable {intOfStr : String → Option Int} {it it₁ : Item} {r record : JobRecord}

theorem ofDict_of_decodeItem (h : JobTable.decodeItem intOfStr (some it) = .ok (some record)) :
    JobRecord.ofDict? intOfStr (fromDynamoDict it) = some record := by
  unfold JobTable.decodeItem at h
  split at h
  · cases h
  · cases h
  · rename_i heq
    obtain rfl := Option.some.inj heq
    obtain ⟨record', hrecord', hsome⟩ := ok_of_map_ok h
    obtain rfl := Option.some.inj hsome
    unfold JobRecord.fromItem at hrecord'
    split at hrecord'
    · rename_i hdec
      exact hdec.trans (congrArg some (Except.ok.inj hrecord'))
    · cases hrecord'

/-- The item of a record agrees with one that decodes on the attributes that every record has. -/
theorem retold_of_decodeItem (hr : r.Plain) (hs : serializeDict (JobTable.recordItem r) = .ok it₁)
    (hsame : ∀ a ∈ ["job_id", "created_at", "filename", "size_bytes", "content_type", "input_key"],
      it.get a = Item.get it₁ a)
    (h : JobTable.decodeItem intOfStr (some it) = .ok (some record)) : Retold r record := by
  obtain ⟨hid, -, hcreated, hfile, hsize, htype, hkey⟩ := hr.required hs
  have hdict := ofDict_of_decodeItem h
  unfold JobRecord.ofDict? at hdict
  obtain ⟨jobId, hid', hdict⟩ := Option.bind_eq_some_iff.mp hdict
  obtain ⟨status, -, hdict⟩ := Option.bind_eq_some_iff.mp hdict
  obtain ⟨createdAt, hcreated', hdict⟩ := Option.bind_eq_some_iff.mp hdict
  obtain ⟨filename, hfile', hdict⟩ := Option.bind_eq_some_iff.mp hdict
  obtain ⟨sizeBytes, hsize', hdict⟩ := Option.bind_eq_some_iff.mp hdict
  obtain ⟨contentType, htype', hdict⟩ := Option.bind_eq_some_iff.mp hdict
  obtain ⟨inputKey, hkey', hdict⟩ := Option.bind_eq_some_iff.mp hdict
  iterate 11 obtain ⟨_, -, hdict⟩ := Option.bind_eq_some_iff.mp hdict
  obtain rfl := Option.some.inj hdict
  have hstr : ∀ {a v w}, readStr (fromDynamoDict it) a = some v → it.get a = Item.get it₁ a →
      Item.get it₁ a = some (.s w) → v = w := fun hread heq hget =>
    AttrValue.s.inj (Option.some.inj ((get_of_readStr hread).symm.trans (heq.trans hget)))
  have hint : readInt intOfStr (fromDynamoDict it) "size_bytes" = some _ :=
    readInt_item ((hsame "size_bytes" (by decide)).trans hsize)
  exact ⟨hstr hid' (hsame _ (by decide)) hid, hstr hcreated' (hsame _ (by decide)) hcreated,
    hstr hfile' (hsame _ (by decide)) hfile, Option.some.inj (hsize'.symm.trans hint),
    hstr htype' (hsame _ (by decide)) htype, hstr hkey' (hsame _ (by decide)) hkey⟩

end Reading

/-! ## The job of an accepted upload -/

section Jobs

variable {ext : Externals} {config : Config} {staff : Proc → Bool} {G : PipeGuard} {c c' : Pipe}
  {n : Nat} {u : Upload} {r : JobRecord}

/-- **The record of an accepted upload can be read** in every state from then on. -/
theorem readable_of_accepted (h : (pipeline ext config staff).Reach G (Machine.initial Cloud.empty) c)
    (hret : recordOf c (.caller n u) = some r) :
    ∃ it record, c.state.table r.jobId = some it ∧
      JobTable.decodeItem ext.intOfStr (some it) = .ok (some record) ∧ Retold r record := by
  obtain ⟨hstory, -, hrec, hun⟩ := puts_of_accepted h (thread_of_recordOf hret)
  obtain ⟨it, -, htable, htyped, -⟩ := item_of_put h hstory.drawn hrec
  obtain ⟨it', it₁, htable', hd, hsame⟩ := untouched_attributes h hstory.drawn hrec hun
  obtain rfl := Option.some.inj (htable'.symm.trans htable)
  obtain ⟨record, hrecord, -⟩ := htyped.decodeItem
  refine ⟨it', record, htable, hrecord, retold_of_decodeItem hstory.new.pending.1 hd (fun a ha => ?_)
    hrecord⟩
  refine hsame a ?_ ?_ ?_ <;>
  · simp only [List.mem_cons, List.not_mem_nil, or_false] at ha
    rcases ha with rfl | rfl | rfl | rfl | rfl | rfl <;> decide

theorem sentBy_of_accepted (h : (pipeline ext config staff).Reach G (Machine.initial Cloud.empty) c)
    (hret : recordOf c (.caller n u) = some r) : SentBy ext config c.log n u r := by
  obtain ⟨hstory, hstored, hrec, attributes, mid, hsent⟩ :=
    h.post (pipelineDiscipline ext config staff) (thread_of_recordOf hret)
  exact ⟨hstory.new, hstory.drawn, hstored, hrec, _, hsent, attributes, rfl⟩

theorem recordOf_later (hret : recordOf c (.caller n u) = some r)
    (h' : (pipeline ext config staff).Reach G c c') : recordOf c' (.caller n u) = some r := by
  simp only [recordOf, Snapshot.result, h'.returned (thread_of_recordOf hret)]

theorem journalOf_suffix {i : Proc} {log log' : Log} {v : Ev} (hlog : log <:+ log')
    (hv : v ∈ journalOf i log) : v ∈ journalOf i log' := by
  obtain ⟨t, rfl⟩ := hlog
  induction t with
  | nil => exact hv
  | cons e t ih => exact journal_mono e ih

/-- The thumbnails that a record names, and what is stored under their keys. -/
def Delivers (ext : Externals) (config : Config) (s : Cloud) (j : String) (data : Bytes)
    (record : JobRecord) : Prop :=
  ∃ outputs, record.outputs = some outputs ∧
    outputs.map Prod.fst = (sortedSizes config.thumbnailSizes).map toString ∧
    ∀ size ∈ config.thumbnailSizes, ∃ out enc, outputs.lookup (toString size) = some out ∧
      out.key = outputKey j size ∧ out.bytes = enc.data.length ∧ ext.Renders data size enc ∧
      s.objects config.s3Bucket out.key = some ⟨enc.data, thumbnailContentType⟩

/-- **What a complete record names is there from then on**, and was rendered from what the caller
uploaded. -/
theorem delivers_later (hown : ∀ n own msg, staff (.worker n own msg) = true → own = config)
    (hfix : ext.Fixed)
    (h : (pipeline ext config staff).Reach Machine.always (Machine.initial Cloud.empty) c)
    (hret : recordOf c (.caller n u) = some r) {it : Item} {record : JobRecord}
    (htable : c.state.table r.jobId = some it)
    (hrecord : JobTable.decodeItem ext.intOfStr (some it) = .ok (some record))
    (hst : record.status = .complete)
    (h' : (pipeline ext config staff).Reach Machine.always c c') :
    Delivers ext config c'.state r.jobId u.data record := by
  obtain ⟨_, heq, hdec⟩ := decodes_of_decodeItem hrecord
  obtain rfl := Option.some.inj heq
  have hcomplete : c.state.status r.jobId = some .complete := by
    rw [Cloud.status, htable, Option.bind_some, hdec.itemStatus, hst]
  obtain ⟨it', job, p, msg, m, data, pic, thumbs, htable', hid, hc⟩ :=
    complete_produced hown h hcomplete
  obtain rfl : it' = it := Option.some.inj (htable'.symm.trans htable)
  obtain ⟨k, u', r', hs, rfl, rfl⟩ := fetched_original h hc.decoded hc.produced.fetched
  obtain ⟨rfl, -⟩ := (sentBy_of_accepted h hret).unique h hs hid
  obtain ⟨ms, now, pre, ha⟩ := hc.applied
  have hx : ∀ kv ∈ p.outputs, kv.2.extra = [] := by
    intro kv hkv
    rw [hc.produced.eq] at hkv
    obtain ⟨th, -, rfl⟩ := List.mem_map.mp hkv
    rfl
  refine ⟨p.outputs, outputs_of_completed ha hx hdec, hc.produced.keys, fun size hsize => ?_⟩
  obtain ⟨th, hth, rfl⟩ := hc.produced.exists_thumb hsize
  have hmem : (toString th.size, (Worker.thumbnailOutput r'.jobId th).2) ∈ p.outputs := by
    rw [hc.produced.eq]
    exact List.mem_map.mpr ⟨th, hth, rfl⟩
  obtain ⟨k', u'', r'', hs', hmsg, enc, hrend, hbody, hstored⟩ := uploaded_stays hown hfix
    (h.trans h') hc.decoded (journalOf_suffix h'.log_suffix (hc.produced.uploads th hth))
  have hid' : r''.jobId = r.jobId := (congrArg JobMessage.jobId hmsg).symm.trans hid
  obtain ⟨rfl, -⟩ := (sentBy_of_accepted (h.trans h') (recordOf_later hret h')).unique (h.trans h')
    hs' hid'
  refine ⟨_, enc, lookup_of_mem (hc.produced.keys ▸ nodup_sizeKeys _) hmem, ?_, ?_, hrend, ?_⟩
  · exact congrArg (outputKey · th.size) hid
  · rw [hbody]
    rfl
  · rw [hbody]
    exact hstored

end Jobs

/-! ## The lookup -/

/-- The answers in which the item of the job decodes to a record as `P` says. -/
def Finds (ext : Externals) (P : JobRecord → Prop) (j : String) (q : Request) (r : q.Resp) : Prop :=
  Cloud.Answers ext q r ∧ ∀ it, (⟨q, r⟩ : Ev) = ⟨.getItem j, .ok it⟩ →
    ∃ record, JobTable.decodeItem ext.intOfStr it = .ok (some record) ∧ P record

/-- How the lookup ends then: with the job, or because DynamoDB has not answered. -/
inductive Followed (P : JobRecord → Prop) (j : String) (h : History) : Except Exc Answer → Prop
  | found {record : JobRecord} (hP : P record) :
      Followed P j h (.ok (.response ⟨200, record.publicView⟩))
  | unavailable : Followed P j h (.ok (.response
      ⟨503, Routes.errorBody "a required dependency is unavailable; retry" "dependency_unavailable"⟩))
  | failed {e : Exc} (he : (⟨.getItem j, .error e⟩ : Ev) ∈ h) : Followed P j h (.error e)

section Lookup

variable {ext : Externals} {config : Config} {P : JobRecord → Prop} {j : String} {h : History}

/-- Why the lookup of the record has raised. -/
def Unanswered (j : String) (e : Exc) (h : History) : Prop :=
  e.isGiveUp = true ∨ e.isOwn = false ∧ (⟨.getItem j, .error e⟩ : Ev) ∈ h

theorem wp_lookup (hj : JobService.isValidJobId j = true) :
    Fallible.wp (recorder (fun _ _ => True) (Finds ext P j))
      ((JobService.build config).getJob ext j) (fun found _ => ∃ record, found = some record ∧ P record)
      (fun e h => Unanswered j e h) h := by
  unfold JobService.getJob
  rw [if_pos hj]
  refine (Fallible.wp_bind _ _ _).mpr (Fallible.wp_mono (wp_callWithRetry (q := .getItem j)
    (J := fun _ => True) (X := fun e h => Unanswered j e h)
    (Q := fun it _ => ∃ record, JobTable.decodeItem ext.intOfStr it = .ok (some record) ∧ P record) _ _
    (fun _ _ => trivial) (fun h q _ hq => ⟨trivial, ?_⟩) ?_ (fun _ _ _ _ _ _ => trivial) ?_
    (fun _ _ _ he => .inl he) trivial) ?_ fun _ _ he => he)
  · rintro r _ ⟨ha, rfl⟩
    exact ⟨trivial, ha.1.steady (by cases q <;> first | rfl | cases hq)⟩
  · rintro h it _ - ⟨ha, rfl⟩
    exact ha.2 it rfl
  · rintro h e _ - ⟨ha, rfl⟩ -
    exact .inr ⟨ha.1.not_own rfl, List.mem_cons_self⟩
  · rintro it h ⟨record, hrecord, hP⟩
    rw [hrecord]
    exact ⟨record, rfl, hP⟩

theorem wp_followed (hj : JobService.isValidJobId j = true) :
    Prog.wp (recorder (fun _ _ => True) (Finds ext P j)) ((Task.getJob j).prog ext config)
      (fun b h => Followed P j h b) [] := by
  suffices hroute : Fallible.wp (recorder (fun _ _ => True) (Finds ext P j))
      (Routes.getJob (.build config) ext j) (fun resp h => Followed P j h (.ok (.response resp)))
      (fun e h => Followed P j h (.error e)) [] by
    refine (Effects.wp_bind _ _ _ _).mpr (Effects.wp_mono hroute ?_)
    rintro (e | resp) h hb
    · exact hb
    · exact hb
  refine (Fallible.wp_tryExcept _ _).mpr ((Fallible.wp_bind _ _ _).mpr
    (Fallible.wp_mono (wp_lookup hj) ?_ fun e h he => ?_))
  · rintro _ h ⟨record, rfl, hP⟩
    exact .found hP
  · obtain hgave | ⟨hown, hmem⟩ := he
    · cases e with
      | transientDependency text operation => exact .unavailable
      | _ => cases hgave
    · cases e with
      | transientDependency => cases hown
      | uploadRejected => cases hown
      | enqueueFailed => cases hown
      | _ => exact .failed hmem

end Lookup

/-- The record that a client finds for its upload `data` under the id `j`. -/
structure OwnJob (ext : Externals) (j : String) (file : UploadFile) (data : Bytes)
    (record : JobRecord) : Prop where
  jobId : record.jobId = j
  filename : record.filename = sanitiseFilename file.filename
  sizeBytes : record.sizeBytes = data.length
  contentType : record.contentType = normaliseContentType ext file.contentType

section Following

variable {ext : Externals} {config : Config} {fleet : Nat → Task}
  {G : Machine.Guard Nat Request Choice Cloud Request.Resp} {d₁ d₂ : Site}

theorem own_of_crew (hfleet : ∀ m own rounds, fleet m = .work own rounds → own = config) (m : Nat)
    (own : Config) (msg : RawMessage) (h : crew fleet (.worker m own msg) = true) : own = config := by
  simp only [crew] at h
  split at h
  · rename_i own' rounds hwork
    rw [eq_of_beq h]
    exact hfleet _ _ _ hwork
  · cases h

/-- **A lookup finds the record** of an upload that was answered before it began: the item it reads is
that of the job at some point in between, and what holds of each such record holds of the answer. -/
theorem lookup_follows (h₁ : (deployment ext config fleet).Reach G (Machine.initial Cloud.empty) d₁)
    {c₁ : Pipe} (hc₁ : (pipeline ext config (crew fleet)).Reach Machine.always
      (Machine.initial Cloud.empty) c₁) (hs₁ : Within ext config fleet d₁ c₁) {n g : Nat} {u : Upload}
    {r : JobRecord} (hret : recordOf c₁ (.caller n u) = some r) (hg : fleet g = .getJob r.jobId)
    (hidle : d₁.thread g = .idle) (h₂ : (deployment ext config fleet).Reach G d₁ d₂)
    {b : Except Exc Answer} (hb : d₂.result g = some b) {P : JobRecord → Prop}
    (hP : ∀ {c c₂ : Pipe} {it : Item} {record : JobRecord},
      (pipeline ext config (crew fleet)).Reach Machine.always c₁ c →
      (pipeline ext config (crew fleet)).Reach Machine.always c c₂ → c₂.state = d₂.state →
      c.state.table r.jobId = some it →
      JobTable.decodeItem ext.intOfStr (some it) = .ok (some record) → Retold r record → P record) :
    Followed P r.jobId (history g d₂.log) b := by
  have hans : ∀ s q ch r s', (deployment ext config fleet).perform s q ch = some (r, s') →
      Cloud.Answers ext q r := fun s q ch r s' hp => ⟨s, ch, s', hp⟩
  have hvalid : JobService.isValidJobId r.jobId = true :=
    (isValidJobId_eq_isMatch _).trans
      ((isMatch_uuidPattern _).mpr (.inl (form_of_isUuid ((sentBy_of_accepted hc₁ hret).uuid hc₁))))
  have hprog : (deployment ext config fleet).prog g = (Task.getJob r.jobId).prog ext config :=
    congrArg (Task.prog ext config) hg
  have hsteps : Steps (recorder (fun _ _ => True) (Cloud.Answers ext))
      ((deployment ext config fleet).prog g) [] (.ret b) (history g d₂.log) :=
    ((h₁.trans h₂).steps hans g).2 _ (Snapshot.result_eq_some.mp hb)
  rw [hprog] at hsteps
  refine (hsteps.restrict fun v hv ha => ⟨ha, fun it hv' => ?_⟩).returned (wp_followed hvalid)
  obtain ⟨e, he, hwho, rfl⟩ := mem_history.mp hv
  obtain ⟨who, s, q, ch, ans⟩ := e
  obtain rfl : who = g := hwho
  cases hv'
  -- the lookup was idle when the upload had been answered, so its read came later
  have hnew : (⟨who, s, .getItem r.jobId, ch, .ok it⟩ : SiteEntry) ∉ d₁.log := by
    intro hmem
    have hnone := h₁.history_of_idle hidle
    rw [List.eq_nil_iff_forall_not_mem] at hnone
    exact hnone _ (mem_history.mpr ⟨_, hmem, rfl, rfl⟩)
  obtain ⟨d, s', hd, hstate, hp, hlater⟩ := h₂.entry_since he hnew
  obtain ⟨c, hc, hs⟩ := (hosting ext config fleet).runs hs₁ hd
  obtain ⟨c₂, hc₂, hs₂⟩ := (hosting ext config fleet).runs hs hlater
  obtain ⟨item, record, htable, hrecord, hretold⟩ :=
    readable_of_accepted (hc₁.trans hc) (recordOf_later hret hc)
  have hit : it = some item := by
    have hserve := Cloud.perform_ok hp
    rw [← htable, hs.state, hstate]
    exact (Except.ok.inj (Prod.mk.inj (Option.some.inj hserve)).1).symm
  exact ⟨record, hit ▸ hrecord, hP hc hc₂ hs₂.state htable hrecord hretold⟩

theorem ownJob_of_retold {c : Pipe} {n : Nat} {u : Upload} {r record : JobRecord} {file : UploadFile}
    (hc : (pipeline ext config (crew fleet)).Reach Machine.always (Machine.initial Cloud.empty) c)
    (hret : recordOf c (.caller n u) = some r) (hfile : u.filename = file.filename)
    (htype : u.contentType = file.contentType) (h : Retold r record) :
    OwnJob ext r.jobId file u.data record := by
  obtain ⟨probe, jobId, traceId, createdAt, updatedAt, hr⟩ := (sentBy_of_accepted hc hret).new
  refine ⟨h.jobId, ?_, ?_, ?_⟩
  · rw [h.filename, hr, ← hfile]
    rfl
  · rw [h.sizeBytes, hr]
    rfl
  · rw [h.contentType, hr, ← htype]
    rfl

/-- **A client finds its own job**: a lookup that begins after the upload was answered with the id `j`
finds the record of that upload, unless DynamoDB fails it. Where rendering is deterministic and the
workers have the configuration of the API, every thumbnail that a complete record names is stored and
is a rendering of the bytes that were posted. -/
theorem client_follows
    (h₁ : (deployment ext config fleet).Reach G (Machine.initial Cloud.empty) d₁) {n g : Nat}
    {contentLength : Option String} {file : UploadFile} {resp : Response} {j : String}
    {b : Except Exc Answer} (hn : fleet n = .postJobs contentLength file)
    (hresp : d₁.result n = some (.ok (.response resp)))
    (hj : resp.content.lookup "job_id" = some (.str j)) (hg : fleet g = .getJob j)
    (hidle : d₁.thread g = .idle) (h₂ : (deployment ext config fleet).Reach G d₁ d₂)
    (hb : d₂.result g = some b) :
    ∃ data, Routes.readLimited file config.maxUploadBytes = pure data ∧
      Followed (OwnJob ext j file data) j (history g d₂.log) b ∧
      (ext.Fixed → (∀ m own rounds, fleet m = .work own rounds → own = config) →
        Followed (fun record => OwnJob ext j file data record ∧
          (record.status = .complete → Delivers ext config d₂.state j data record))
          j (history g d₂.log) b) := by
  obtain ⟨c₁, hc₁, hs₁⟩ := within_of_reach h₁
  obtain ⟨-, u, r, hret, rfl, hread, hfile, htype⟩ := hs₁.posted hn hresp hj
  have hown : ∀ {record}, Retold r record → OwnJob ext r.jobId file u.data record := fun hretold =>
    ownJob_of_retold hc₁ hret hfile htype hretold
  refine ⟨u.data, hread, lookup_follows h₁ hc₁ hs₁ hret hg hidle h₂ hb fun _ _ _ _ _ => hown, ?_⟩
  intro hfix hfleet
  refine lookup_follows h₁ hc₁ hs₁ hret hg hidle h₂ hb ?_
  intro c c₂ it record hc hc₂ hstate htable hrecord hretold
  refine ⟨hown hretold, fun hst => ?_⟩
  rw [← hstate]
  exact delivers_later (own_of_crew hfleet) hfix (hc₁.trans hc) (recordOf_later hret hc) htable hrecord
    hst hc₂

end Following

namespace Surroundings

theorem own_of_smallFleet (m : Nat) (own : Config) (rounds : Nat)
    (h : smallFleet m = .work own rounds) : own = config := by
  match m with
  | 0 => cases h
  | 1 => exact (Task.work.inj h).1.symm
  | 2 => cases h
  | 3 => exact (Task.work.inj h).1.symm
  | _ + 4 => cases h

/-- Whether the job was found, and complete. -/
def isComplete : Except Exc Answer → Bool
  | .ok (.response resp) => resp.status == 200 &&
    match resp.content.lookup "status" with
    | some (.str status) => status == JobStatus.complete.value
    | _ => false
  | _ => false

theorem status_of_isComplete {record : JobRecord}
    (h : isComplete (.ok (.response ⟨200, record.publicView⟩)) = true) : record.status = .complete := by
  have hvalue : (record.status.value == JobStatus.complete.value) = true := h
  cases hst : record.status <;> rw [hst] at hvalue <;> first | rfl | cases hvalue

/-- The job has been looked up after a worker has completed it. -/
def lookedUp : Site := smallDeployment.played worked (Machine.script 2 [plain])

theorem lookedUp_complete : (lookedUp.result 2).any isComplete = true := by
  decide +kernel

theorem client_follows_worked : ∃ record : JobRecord,
    lookedUp.result 2 = some (.ok (.response ⟨200, record.publicView⟩)) ∧
      OwnJob small jobId dotFile dotGif record ∧ record.status = .complete ∧
      Delivers small config lookedUp.state jobId dotGif record := by
  have hok := lookedUp_complete
  obtain ⟨b, hb, hb'⟩ := (Option.any_eq_true _ _).mp hok
  have hreach : smallDeployment.Reach Machine.always posted lookedUp :=
    ((Machine.Reach.refl.played _).played _).played _
  obtain ⟨data, hread, -, hdelivered⟩ := client_follows reach_posted (n := 0) (g := 2) rfl posted_result
    rfl rfl rfl hreach hb
  obtain rfl : data = dotGif := Except.ok.inj (Prog.ret.inj hread.symm)
  cases hdelivered small_fixed own_of_smallFleet with
  | @found record hP =>
    have hstatus := status_of_isComplete hb'
    exact ⟨record, hb, hP.1, hstatus, hP.2 hstatus⟩
  | unavailable => cases hb'
  | failed => cases hb'

end Surroundings

end PixelForge
