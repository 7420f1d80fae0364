import PixelForge.Pipeline.System
import PixelForge.Shared.Records

/-! # What the log of a run shows

Only workers update items and only uploads put them; every update is one of the three known ones;
an answered update was applied. `Journaled` reads the journal of a process back into the log.
-/
set_option autoImplicit false

namespace PixelForge
open Effects

/-! ## Who writes what -/

section Writers

variable {ext : Externals} {config : Config} {i : Proc} {hist : History}

theorem UpdateDue.known {w : Worker} {job : JobMessage} {t : List Ev} {u : Update}
    (h : UpdateDue w ext job t u) : u.Known := by
  cases h with
  | processing now => exact .processing now
  | complete ms now => exact .complete _ ms now
  | failed reason now => exact .failed reason now

theorem UpdateDue.plainOutputs {w : Worker} {job : JobMessage} {t : List Ev} {u : Update}
    (h : UpdateDue w ext job t u) : u.PlainOutputs := by
  intro v hv
  cases h with
  | processing now => cases hv
  | complete ms now hwon hp =>
    refine ⟨_, (Option.some.inj hv).symm, fun kv hkv => ?_⟩
    rw [hp.eq] at hkv
    obtain ⟨th, -, rfl⟩ := List.mem_map.mp hkv
    rfl
  | failed reason now => cases hv

/-- Only a worker updates an item, its own job's, after a lookup and when the update is due. -/
theorem processMay_update {j : String} {u : Update}
    (h : processMay ext config i hist (.updateItem j u)) :
    ∃ n own msg job, i = .worker n own msg ∧ msg.job? ext = some job ∧ j = job.jobId ∧
      Looked ext job (journal hist) ∧ UpdateDue (.build own) ext job (journal hist) u := by
  cases i with
  | caller n up => exact h.elim
  | worker n own msg =>
    obtain ⟨job, hjob, hj, hl, hu⟩ := h
    exact ⟨n, own, msg, job, rfl, hjob, hj, hl, hu⟩

theorem Story.plain {svc : JobService} {u : Upload} {r : JobRecord} {t : List Ev}
    (h : Story svc ext u r t) : r.Plain := by
  obtain ⟨probe, jobId, traceId, createdAt, updatedAt, rfl⟩ := h.new
  exact newRecord_plain ext u probe jobId traceId createdAt updatedAt

theorem Story.pending {svc : JobService} {u : Upload} {r : JobRecord} {t : List Ev}
    (h : Story svc ext u r t) : r.status = .pending := by
  obtain ⟨probe, jobId, traceId, createdAt, updatedAt, rfl⟩ := h.new
  rfl

/-- What an upload may put, as an item: its new record, or the same job marked `FAILED`. -/
theorem CallerMay.put {svc : JobService} {u : Upload} {t : List Ev} {d : PyDict} {it : Item}
    (h : CallerMay svc ext u t (.putItem d)) (hd : serializeDict d = .ok it) :
    ∃ r r' : JobRecord, Story svc ext u r t ∧ Stored svc u r t ∧ r'.StoredAs ext.intOfStr it ∧
      r'.jobId = r.jobId ∧ r'.inputKey = r.inputKey ∧
      (r'.status = .pending ∧ (∀ v ∈ t, v.1.isSend = false) ∨
        r'.status = .failed ∧ r'.completedAt.isSome = true ∧ Compensates r d ∧ Recorded r t ∧
          Unsent t) := by
  obtain ⟨r, hst, hobj, ⟨rfl, hsend⟩ | ⟨⟨e, a, b, rfl⟩, hrec, hun⟩⟩ := h
  · exact ⟨r, r, hst, hobj, hst.plain.storedAs hd, rfl, rfl, .inl ⟨hst.pending, hsend⟩⟩
  · exact ⟨r, _, hst, hobj, (unqueueable_plain hst.plain e a b).storedAs hd, rfl, rfl,
      .inr ⟨rfl, rfl, ⟨e, a, b, rfl⟩, hrec, hun⟩⟩

theorem processMay_put {d : PyDict} {it : Item} (h : processMay ext config i hist (.putItem d))
    (hd : serializeDict d = .ok it) :
    ∃ n u, ∃ r r' : JobRecord, i = .caller n u ∧ Story (.build config) ext u r (journal hist) ∧
      Stored (.build config) u r (journal hist) ∧ r'.StoredAs ext.intOfStr it ∧
      r'.jobId = r.jobId ∧ r'.inputKey = r.inputKey ∧
      (r'.status = .pending ∧ (∀ v ∈ journal hist, v.1.isSend = false) ∨
        r'.status = .failed ∧ r'.completedAt.isSome = true ∧ Compensates r d ∧
          Recorded r (journal hist) ∧ Unsent (journal hist)) := by
  cases i with
  | caller n u =>
    obtain ⟨r, r', h⟩ := CallerMay.put h hd
    exact ⟨n, u, r, r', rfl, h⟩
  | worker n own msg => exact h.elim

theorem itemKey_of_get {it : Item} {j : String} (h : itemKey it = some j) :
    it.get "job_id" = some (.s j) := by
  unfold itemKey at h
  split at h
  · rename_i v hv
    rw [hv, Option.some.inj h]
  · cases h

end Writers

/-! ## Entries of a run -/

section Entries

variable {ext : Externals} {config : Config} {staff : Proc → Bool} {G : PipeGuard} {s₀ : Cloud}
  {c : Pipe}

theorem entry_of_journal {i : Proc} {log : Log} {v : Ev} (h : v ∈ journal (history i log)) :
    ∃ e ∈ log, e.who = i ∧ (⟨e.req, e.resp⟩ : Ev) = v :=
  mem_history.mp (mem_of_mem_journal h)

theorem journal_of_entry {log : Log} {e : LogEntry} (he : e ∈ log)
    (hc : Ev.counts ⟨e.req, e.resp⟩ = true) :
    (⟨e.req, e.resp⟩ : Ev) ∈ journal (history e.who log) :=
  mem_journal hc (mem_history.mpr ⟨e, he, rfl, rfl⟩)

theorem journal_cons_self (e : LogEntry) (log : Log) :
    journal (history e.who (e :: log)) = note ⟨e.req, e.resp⟩ (journal (history e.who log)) := by
  rw [history_cons_self, journal_cons]

theorem mem_note {v v' : Ev} {t : List Ev} (h : v ∈ note v' t) : v = v' ∨ v ∈ t := by
  unfold note at h
  split at h
  · exact List.mem_cons.mp h
  · exact .inr h

theorem mem_note_of_mem {v v' : Ev} {t : List Ev} (h : v ∈ t) : v ∈ note v' t := by
  unfold note
  split
  · exact List.mem_cons_of_mem _ h
  · exact h

theorem journal_mono {i : Proc} {log : Log} {v : Ev} (e : LogEntry)
    (h : v ∈ journal (history i log)) : v ∈ journal (history i (e :: log)) := by
  by_cases hi : e.who = i
  · subst hi
    rw [journal_cons_self]
    exact mem_note_of_mem h
  · rwa [history_cons_ne hi]

theorem journal_cases {i : Proc} {log : Log} {v : Ev} {e : LogEntry}
    (h : v ∈ journal (history i (e :: log))) :
    v ∈ journal (history i log) ∨ e.who = i ∧ v = ⟨e.req, e.resp⟩ := by
  by_cases hi : e.who = i
  · subst hi
    rw [journal_cons_self] at h
    exact (mem_note h).symm.imp_right fun h => ⟨rfl, h⟩
  · rw [history_cons_ne hi] at h
    exact .inl h

theorem moved_of_updateOk {e : LogEntry} {s' : Cloud} {j : String} {u : Update}
    (h : e.before.perform ext e.req e.choice = some (e.resp, s'))
    (hv : (⟨e.req, e.resp⟩ : Ev) = updateOk j u) :
    moved e = u.target.map (fun st => (j, st)) ∧
      ∃ it, u.apply j (e.before.table j) = .ok it ∧ s'.table j = some it := by
  obtain ⟨who, s, q, ch, r⟩ := e
  cases hv
  obtain ⟨-, -, e, he, -⟩ | ⟨it, hf, hit, rfl, -⟩ := Cloud.perform_updateItem h
  · cases he
  · exact ⟨by simp [moved, hf, hit], it, hit, by simp [Cloud.setItem_table]⟩

theorem update_of_moved {e : LogEntry} {j : String} {st : JobStatus}
    (h : moved e = some (j, st)) :
    ∃ u it, e.req = .updateItem j u ∧ u.target = some st ∧
      u.apply j (e.before.table j) = .ok it := by
  obtain ⟨who, s, q, ch, r⟩ := e
  unfold moved at h
  dsimp only at h
  split at h
  · split at h
    · split at h
      · rename_i it hit
        obtain ⟨st', hst, heq⟩ := Option.map_eq_some_iff.mp h
        obtain ⟨rfl, rfl⟩ := Prod.mk.inj heq
        exact ⟨_, it, rfl, hst, hit⟩
      · cases h
    · cases h
  · cases h

/-- **Induction over the runs of the pipeline**: what holds at first, what the redrive policy keeps
and what every permitted and performed entry keeps holds in every reachable state. -/
theorem pipeline_invariant {P : Cloud → Log → Prop} (hinit : P s₀ [])
    (hredrive : ∀ s log mid m, P s log → s.queue mid = some m → m.place = .onQueue →
      P (s.setMessage mid { m with place := .onDeadLetter }) log)
    (hentry : ∀ (c : Pipe) (e : LogEntry) (s' : Cloud),
      (pipeline ext config staff).Reach G (Machine.initial s₀) c → P c.state c.log →
      e.before = c.state → c.thread e.who ≠ .idle →
      processMay ext config e.who (history e.who c.log) e.req →
      e.before.perform ext e.req e.choice = some (e.resp, s') → G c.log e → P s' (e :: c.log))
    (h : (pipeline ext config staff).Reach G (Machine.initial s₀) c) : P c.state c.log := by
  refine h.invariant hinit (fun s log mid s' hP hs => ?_) fun c i q k ch r s' hr hP hi hp hG => ?_
  · obtain ⟨m, hm, hq, rfl⟩ := Cloud.redrive_cases hs
    exact hredrive s log mid m hP hm hq
  · exact hentry c ⟨i, c.state, q, ch, r⟩ s' hr hP rfl (fun h => by rw [hi] at h; cases h)
      (hr.may (pipelineDiscipline ext config staff) hi) hp hG

theorem table_of_moved {e : LogEntry} {s' : Cloud} {j : String} {st : JobStatus}
    (h : e.before.perform ext e.req e.choice = some (e.resp, s')) (hm : moved e = some (j, st)) :
    ∃ u it, e.req = .updateItem j u ∧ u.target = some st ∧
      u.apply j (e.before.table j) = .ok it ∧ s'.table j = some it := by
  obtain ⟨u, it, hq, ht, ha⟩ := update_of_moved hm
  obtain ⟨who, s, q, ch, r⟩ := e
  obtain rfl : q = .updateItem j u := hq
  obtain ⟨-, hno, -⟩ | ⟨it', -, hit, rfl, -⟩ := Cloud.perform_updateItem h
  · obtain hf | ⟨e, he⟩ := hno
    · simp [moved, hf] at hm
    · rw [show u.apply j (s.table j) = .ok it from ha] at he
      cases he
  · exact ⟨u, it', rfl, ht, hit, by simp [Cloud.setItem_table]⟩

/-- A permitted entry that moved a job left it in the status it moved it to. -/
theorem status_of_moved {e : LogEntry} {s' : Cloud} {hist : History} {j : String}
    {st : JobStatus} (hmay : processMay ext config e.who hist e.req)
    (h : e.before.perform ext e.req e.choice = some (e.resp, s')) (hm : moved e = some (j, st)) :
    s'.status j = some st := by
  obtain ⟨u, it, hq, ht, ha, hs⟩ := table_of_moved h hm
  rw [hq] at hmay
  obtain ⟨_, _, _, _, -, -, -, -, hdue⟩ := processMay_update hmay
  rw [Cloud.status, hs, Option.bind_some, hdue.known.status ha, ht]

theorem entry_may (h : (pipeline ext config staff).Reach G (Machine.initial s₀) c) {e : LogEntry}
    (he : e ∈ c.log) :
    ∃ earlier, ∃ s' : Cloud, processMay ext config e.who (history e.who earlier) e.req ∧
      (∀ v ∈ journal (history e.who earlier), v ∈ journal (history e.who c.log)) ∧
      (∀ e' ∈ earlier, e' ∈ c.log) ∧
      e.before.perform ext e.req e.choice = some (e.resp, s') := by
  obtain ⟨later, earlier, hlog⟩ := List.append_of_mem he
  obtain ⟨hmay, -, s', hp⟩ := h.entry (pipelineDiscipline ext config staff) hlog
  refine ⟨earlier, s', hmay, fun v hv => ?_, fun e' he' => ?_, hp⟩
  · have hc := counts_of_mem_journal hv
    obtain ⟨e', he', hw, rfl⟩ := entry_of_journal hv
    rw [← hw]
    exact journal_of_entry (hlog ▸ List.mem_append_right _ (List.mem_cons_of_mem _ he')) hc
  · exact hlog ▸ List.mem_append_right _ (List.mem_cons_of_mem _ he')

theorem admitted_of_started (h : (pipeline ext config staff).Reach G (Machine.initial s₀) c)
    {i : Proc} (hi : c.thread i ≠ .idle) : staff i = true :=
  h.since_start (F := fun i _ => staff i = true)
    (fun _ _ hs => (Bool.and_eq_true_iff.mp hs).1) (fun _ _ _ _ h _ => h)
    (fun _ _ _ _ _ _ h _ => h) i hi

theorem moved_of_journal (h : (pipeline ext config staff).Reach G (Machine.initial s₀) c)
    {i : Proc} {j : String} {u : Update} (hv : updateOk j u ∈ journal (history i c.log)) :
    ∃ e ∈ c.log, e.who = i ∧ moved e = u.target.map fun st => (j, st) := by
  obtain ⟨e, he, hw, hev⟩ := entry_of_journal hv
  obtain ⟨-, s', -, -, -, hp⟩ := entry_may h he
  exact ⟨e, he, hw, (moved_of_updateOk hp hev).1⟩

end Entries

end PixelForge
