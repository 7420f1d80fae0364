import PixelForge.Pipeline.Completion

/-! # The compensating record

When the enqueue raises, `create_job` overwrites the record it wrote with a `FAILED` one, without a
condition. This loses nothing as long as no worker has started on the job: `compensatesUnstarted`
are the runs in which no compensation is applied after a `mark_processing` of its job.
-/
set_option autoImplicit false

namespace PixelForge
open Effects

/-- The job whose record the entry overwrote with a `FAILED` one. -/
def compensated (e : LogEntry) : Option String :=
  match e.req with
  | .putItem d =>
    if e.choice.fault.takesEffect then
      match serializeDict d with
      | .ok it => if Item.status it = some .failed then itemKey it else none
      | .error _ => none
    else none
  | _ => none

/-- No `mark_processing` of the job was applied. -/
def unstarted (j : String) (log : Log) : Bool := log.all fun e => moved e != some (j, .processing)

/-- The entry does not compensate for a job that a worker has started on. -/
abbrev compensatesUnstarted : PipeGuard := fun log e =>
  (match compensated e with
    | some j => unstarted j log
    | none => true) = true

/-- The attributes that only the updates of a worker write, and `completed_at`, which the
compensation writes as well. -/
def workerAttributes : List String :=
  ["started_at", "completed_at", "outputs", "exif", "processing_ms"]

/-- What the workers have written to an item as long as none of them has started on the job. -/
structure Item.Unstarted (it : Item) : Prop where
  absent : ∀ a ∈ ["started_at", "outputs", "exif", "processing_ms"], it.get a = none
  status : it.status ≠ some .complete

section Runs

variable {ext : Externals} {config : Config} {staff : Proc → Bool} {G : PipeGuard} {c : Pipe}

theorem moved_of_unstarted {j : String} {log : Log} {e : LogEntry} (h : unstarted j log = true)
    (he : e ∈ log) : moved e ≠ some (j, .processing) := by
  simpa using List.all_eq_true.mp h e he

theorem Item.Unstarted.failed {it' : Item} {it : Option Item} {reason now j : String}
    (h : ∀ i, it = some i → i.Unstarted) (ha : (failedUpdate reason now).apply j it = .ok it') :
    it'.Unstarted where
  absent a hmem := by
    have hset : a ∉ (failedUpdate reason now).set.map Prod.fst := by
      rw [failedUpdate_keys]
      revert a
      decide
    have hbase : (baseItem j it).get a = none := by
      cases it with
      | some i => exact (h i rfl).absent a hmem
      | none =>
        revert a
        simp [baseItem, Item.get]
    rw [Update.get_apply_of_not_mem ha hset List.not_mem_nil, hbase]
  status := by
    rw [(Update.Known.failed reason now).status ha, target_failedUpdate]
    decide

/-- **A job that no worker has started on has no item, or one with none of a worker's results.** -/
theorem unstarted_item (h : (pipeline ext config staff).Reach G (Machine.initial Cloud.empty) c)
    {j : String} (hu : unstarted j c.log = true) {it : Item} (hit : c.state.table j = some it) :
    it.Unstarted := by
  revert hu it
  refine pipeline_invariant (P := fun s log => unstarted j log = true →
    ∀ {it}, s.table j = some it → it.Unstarted) ?_ ?_ ?_ h
  · intro _ it hit
    cases hit
  · exact fun s log mid m hP _ _ => hP
  · intro c e s' hr hP hbefore _ hmay hp _ hu it hit
    obtain ⟨hne, hu⟩ : moved e ≠ some (j, .processing) ∧ unstarted j c.log = true := by
      simpa [unstarted] using hu
    cases itemStep hp j with
    | same hs => exact hP hu (by rw [← hit, hs, hbefore])
    | @update up it' hq ha hs hm =>
      obtain rfl : it' = it := Option.some.inj (hs.symm.trans hit)
      rw [hq] at hmay
      obtain ⟨n, own, msg, job, hi, -, rfl, -, hdue⟩ := processMay_update hmay
      cases hdue with
      | processing now => exact absurd hm hne
      | complete ms now hwon =>
        obtain ⟨now', hv⟩ := hwon
        obtain ⟨e', he', -, hm'⟩ := moved_of_journal hr hv
        exact absurd hm' (moved_of_unstarted hu he')
      | failed reason now =>
        rw [hbefore] at ha
        exact Item.Unstarted.failed (fun i hi => hP hu hi) ha
    | @put d it' hq hd hj hs =>
      obtain rfl : it' = it := Option.some.inj (hs.symm.trans hit)
      rw [hq] at hmay
      obtain ⟨_, _, r, r', -, -, -, hstored, -, -, hwhy⟩ := processMay_put hmay hd
      refine ⟨hstored.absent, ?_⟩
      rw [hstored.status]
      obtain ⟨hst, -⟩ | ⟨hst, -⟩ := hwhy <;> rw [hst] <;> decide

/-- A put that is not refused before it takes effect stores its item. -/
theorem perform_putItem {s s' : Cloud} {ch : Choice} {d : PyDict} {r : Request.Resp (.putItem d)}
    (h : s.perform ext (.putItem d) ch = some (r, s')) (hf : ch.fault.takesEffect = true)
    {it : Item} {j : String} (hd : serializeDict d = .ok it) (hj : itemKey it = some j) :
    s' = s.setItem j it := by
  have hserve : Cloud.serve ext s (.putItem d) ch = some (.ok (), s.setItem j it) := by
    simp only [Cloud.serve, hd, hj]
  unfold Cloud.perform at h
  rw [hserve] at h
  split at h
  · exact (Prod.mk.inj (Option.some.inj h)).2.symm
  · rename_i e he
    rw [he] at hf
    cases hf
  · split at h
    · exact (Prod.mk.inj (Option.some.inj h)).2.symm
    · cases h

theorem put_of_compensated {e : LogEntry} {s' : Cloud} {j : String}
    (hp : e.before.perform ext e.req e.choice = some (e.resp, s')) (hc : compensated e = some j) :
    ∃ d it, e.req = .putItem d ∧ serializeDict d = .ok it ∧ Item.status it = some .failed ∧
      s'.table j = some it := by
  obtain ⟨who, s, q, ch, r⟩ := e
  unfold compensated at hc
  dsimp only at hp hc
  split at hc
  · rename_i d
    split at hc
    · rename_i hf
      split at hc
      · rename_i it hd
        split at hc
        · rename_i hst
          refine ⟨d, it, rfl, hd, hst, ?_⟩
          rw [perform_putItem hp hf hd hc, Cloud.setItem_table, if_pos rfl]
        · cases hc
      · cases hc
    · cases hc
  · cases hc

/-- **The compensation destroys no result of a worker**, in every run in which no compensation is
applied after a `mark_processing` of its job. -/
theorem compensation_harmless
    (h : (pipeline ext config staff).Reach compensatesUnstarted (Machine.initial Cloud.empty) c)
    {c' : Pipe} {l : Label Proc Choice String} {e : LogEntry} {j : String}
    (hs : (pipeline ext config staff).step c l = some c') (hlog : c'.log = e :: c.log)
    (hG : compensatesUnstarted c.log e) (hc : compensated e = some j) :
    c.state.status j ≠ some .complete ∧
    ∀ it, c.state.table j = some it → ∀ a ∈ workerAttributes, (it.get a).isSome = true →
      ∃ it', c'.state.table j = some it' ∧ (it'.get a).isSome = true := by
  have hu : unstarted j c.log = true := by simpa [compensatesUnstarted, hc] using hG
  refine ⟨fun hst => ?_, fun it hit a ha hsome => ?_⟩
  · obtain ⟨it, hit, hcomplete⟩ := Option.bind_eq_some_iff.mp hst
    exact (unstarted_item h hu hit).status hcomplete
  · have habsent := (unstarted_item h hu hit).absent
    obtain ⟨htable, -⟩ | ⟨e', -, hlog', -, hmay, hp⟩ := step_entry h hs
    · exact ⟨it, by rw [htable, hit], hsome⟩
    · obtain ⟨rfl, -⟩ := List.cons.inj (hlog.symm.trans hlog')
      obtain ⟨d, it', hq, hd, hst, htable⟩ := put_of_compensated hp hc
      rw [hq] at hmay
      obtain ⟨_, _, r, r', -, -, -, hstored, -, -, hwhy⟩ := processMay_put hmay hd
      refine ⟨it', htable, ?_⟩
      have hcompleted : (Item.get it' "completed_at").isSome = true := by
        obtain ⟨hpending, -⟩ | ⟨-, hcompleted, -⟩ := hwhy
        · rw [hstored.status, hpending] at hst
          cases hst
        · rw [hstored.completedAt, Option.isSome_map, hcompleted]
      by_cases hac : a = "completed_at"
      · exact hac ▸ hcompleted
      · -- the other attributes are not there to be removed
        have hrest : a ∈ ["started_at", "outputs", "exif", "processing_ms"] := by
          simp only [workerAttributes, List.mem_cons] at ha ⊢
          tauto
        rw [habsent a hrest] at hsome
        cases hsome

end Runs

section Scene
open Surroundings

/-- The queue has taken the message, but its response was lost. -/
def unheard : Pipe :=
  scene.played (Surroundings.recorded goodUpload) [.act (caller goodUpload) plain,
    .act (caller goodUpload)
      { text := messageId, fault := .lost (.botoCoreError "HTTPClientError" "connection reset") }]

/-- The next three requests of the upload: a counter and two readings of the clock. -/
def aboutToCompensate : List (Label Proc Choice String) :=
  List.replicate 3 (.act (caller goodUpload) plain)

/-- A worker completes the job before the upload goes on. -/
def overwriting : Pipe := scene.played (started 0 unheard) (going 0 24 ++ aboutToCompensate)

theorem compensation_harmful : ∃ c c' l e, scene.Reach Machine.always (Machine.initial Cloud.empty) c ∧
    scene.step c l = some c' ∧ c'.log = e :: c.log ∧ compensated e = some jobId ∧
    c.state.status jobId = some .complete ∧ c'.state.status jobId = some .failed ∧
    ∀ a ∈ ["started_at", "outputs", "exif", "processing_ms"],
      ((c.state.table jobId).bind (·.get a)).isSome = true ∧
      ((c'.state.table jobId).bind (·.get a)).isSome = false := by
  have hreach : scene.Reach Machine.always (Machine.initial Cloud.empty) overwriting :=
    (reach_started (colleague_worker 0) ((reach_recorded _).played _)
      ((Machine.played_thread (by decide)).trans (recorded_idle (worker_ne_caller 0 _)))
      rfl).played _
  have hstep : ((scene.step overwriting (.act (caller goodUpload) plain)).any fun c' =>
      c'.log.head?.bind compensated == some jobId && c'.state.status jobId == some .failed &&
        ["started_at", "outputs", "exif", "processing_ms"].all fun a =>
          ((overwriting.state.table jobId).bind (·.get a)).isSome &&
            !((c'.state.table jobId).bind (·.get a)).isSome) = true := by
    decide +kernel
  obtain ⟨c', hc', hall⟩ := (Option.any_eq_true _ _).mp hstep
  obtain ⟨e, -, he⟩ := Machine.log_of_act hc'
  simp only [he, List.head?_cons, Option.bind_some, Bool.and_eq_true, beq_iff_eq] at hall
  obtain ⟨⟨hcomp, hst⟩, hattr⟩ := hall
  refine ⟨overwriting, c', _, e, hreach, hc', he, hcomp, by decide +kernel, hst, fun a ha => ?_⟩
  simpa using List.all_eq_true.mp hattr a ha

/-- Without a worker, the compensation is harmless. -/
theorem compensation_harmless_unheard :
    ∃ c', scene.step (scene.played unheard aboutToCompensate) (.act (caller goodUpload) plain) =
      some c' ∧ (scene.played unheard aboutToCompensate).state.status jobId ≠ some .complete := by
  have hlaw : Machine.lawful compensatesUnstarted (scene.played unheard aboutToCompensate).log =
      true := by
    rfl
  have hstep : ((scene.step (scene.played unheard aboutToCompensate)
      (.act (caller goodUpload) plain)).any fun c' => c'.log.head?.bind compensated == some jobId &&
        Machine.admits compensatesUnstarted (scene.played unheard aboutToCompensate) c') = true := by
    rfl
  obtain ⟨c', hc', hall⟩ := (Option.any_eq_true _ _).mp hstep
  obtain ⟨e, -, he⟩ := Machine.log_of_act hc'
  simp only [he, List.head?_cons, Option.bind_some, Bool.and_eq_true, beq_iff_eq] at hall
  exact ⟨c', hc', (compensation_harmless ((((reach_recorded _).played _).played _).lawful hlaw) hc'
    he (Machine.guard_of_admits hall.2 he) hall.1).1⟩

end Scene

end PixelForge
