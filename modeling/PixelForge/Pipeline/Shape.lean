import PixelForge.Effects.Replay
import PixelForge.Pipeline.Entries
import PixelForge.Worker.Deliveries

/-! # The shape of a record

The status of an item says which of its other attributes it has (`Item.ShapedAs`). Both puts of
`create_job` write a shaped item; `mark_processing` keeps the shape of an item that is not `FAILED`,
`mark_complete` that of one in `PROCESSING` or `COMPLETE`, `mark_failed` that of one that is not
`COMPLETE`. Operations that run one after another (`Sequence`) make each update in such a status,
but for a `mark_processing` of a `FAILED` record.
-/
set_option autoImplicit false

namespace PixelForge
open Effects

/-! ## Shapes -/

/-- The attributes that go with the status. -/
structure Item.ShapedAs (it : Item) (st : JobStatus) : Prop where
  status : it.status = some st
  error : (it.get "error").isSome = true ↔ st = .failed
  completedAt : (it.get "completed_at").isSome = true ↔ st = .complete ∨ st = .failed
  results : ∀ a ∈ ["outputs", "exif", "processing_ms"], (it.get a).isSome = true ↔ st = .complete
  waiting : st = .pending → (it.get "started_at").isSome = false
  started : st = .processing ∨ st = .complete → (it.get "started_at").isSome = true

def Item.Shaped (it : Item) : Prop := ∃ st, it.ShapedAs st

/-- Every record has its shape. -/
def Cloud.Shaped (s : Cloud) : Prop := ∀ j it, s.table j = some it → it.Shaped

section Updates

variable {it it' : Item} {st : JobStatus} {j now : String} {a : String}

theorem Update.isSome_get {u : Update} {before : Option Item} (h : u.apply j before = .ok it')
    (hn : (u.set.map Prod.fst).Nodup) (a : String) :
    (it'.get a).isSome = (!u.remove.contains a &&
      ((u.set.map Prod.fst).contains a || ((baseItem j before).get a).isSome)) := by
  have hget := Update.get_apply h hn a
  by_cases hr : a ∈ u.remove
  · rw [if_pos hr] at hget
    simp [hget, hr]
  · rw [if_neg hr] at hget
    cases hv : u.set.lookup a with
    | none =>
      have hkey : a ∉ u.set.map Prod.fst := by
        rw [List.mem_map]
        rintro ⟨⟨k, v⟩, hmem, rfl⟩
        simpa using List.lookup_eq_none_iff.mp hv _ hmem
      simp only [hv] at hget
      simp [hget, hr, List.contains_eq_mem, hkey]
    | some v =>
      have hkey : a ∈ u.set.map Prod.fst := by
        obtain ⟨l₁, l₂, hset, -⟩ := List.lookup_eq_some_iff.mp hv
        simp [hset]
      simp only [hv] at hget
      obtain ⟨w, -, hw⟩ := hget
      simp [hw, hr, List.contains_eq_mem, hkey]

theorem isSome_processing (ha : (processingUpdate now).apply j (some it) = .ok it') (a : String) :
    (it'.get a).isSome =
      (["status", "started_at", "updated_at"].contains a || (it.get a).isSome) :=
  (Update.isSome_get ha (Update.Known.processing now).nodup a).trans (Bool.true_and _)

theorem Item.ShapedAs.processing (h : it.ShapedAs st) (hst : st ≠ .failed)
    (ha : (processingUpdate now).apply j (some it) = .ok it') : it'.ShapedAs .processing := by
  have hu : (processingUpdate now).Known := .processing now
  have hne : st ≠ .complete := by
    obtain ⟨i, hi, hcond⟩ := processing_condition ha
    rw [← Option.some.inj hi, h.status] at hcond
    exact fun h => hcond (congrArg some h)
  have hget := isSome_processing ha
  exact {
    status := hu.status ha
    error := by
      rw [hget]
      simpa [hst] using h.error
    completedAt := by
      rw [hget]
      simpa [hst, hne] using h.completedAt
    results := fun a hmem => by
      have hres := h.results a hmem
      rw [hget]
      simp only [List.mem_cons, List.not_mem_nil, or_false] at hmem
      rcases hmem with rfl | rfl | rfl <;> simpa [hne] using hres
    waiting := fun h => by cases h
    started := fun _ => by
      rw [hget]
      rfl }

theorem Item.ShapedAs.complete {p : ProcessedOutputs} {ms : Int} (h : it.ShapedAs st)
    (hst : st = .processing ∨ st = .complete)
    (ha : (completeUpdate p ms now).apply j (some it) = .ok it') : it'.ShapedAs .complete := by
  have hu : (completeUpdate p ms now).Known := .complete p ms now
  have hget : ∀ a, (it'.get a).isSome = (!(["error"].contains a) &&
      (["status", "outputs", "exif", "source_width", "source_height", "source_format",
        "processing_ms", "completed_at", "updated_at"].contains a || (it.get a).isSome)) :=
    Update.isSome_get ha hu.nodup
  exact {
    status := hu.status ha
    error := by
      rw [hget]
      simp
    completedAt := by
      rw [hget]
      simp
    results := fun a hmem => by
      rw [hget]
      simp only [List.mem_cons, List.not_mem_nil, or_false] at hmem
      rcases hmem with rfl | rfl | rfl <;> simp
    waiting := fun h => by cases h
    started := fun _ => by
      rw [hget]
      simpa using h.started hst }

theorem Item.ShapedAs.failed {reason : String} {before : Option Item}
    (h : ∀ i, before = some i → ∃ st, i.ShapedAs st ∧ st ≠ .complete)
    (ha : (failedUpdate reason now).apply j before = .ok it') : it'.ShapedAs .failed := by
  have hu : (failedUpdate reason now).Known := .failed reason now
  have hget : ∀ a, (it'.get a).isSome = (["status", "error", "completed_at", "updated_at"].contains a ||
      ((baseItem j before).get a).isSome) := fun a =>
    (Update.isSome_get ha hu.nodup a).trans (Bool.true_and _)
  have hbase : ∀ a ∈ ["outputs", "exif", "processing_ms"], ((baseItem j before).get a).isSome = false := by
    intro a hmem
    cases before with
    | none =>
      simp only [List.mem_cons, List.not_mem_nil, or_false] at hmem
      rcases hmem with rfl | rfl | rfl <;> rfl
    | some i =>
      obtain ⟨st, hi, hne⟩ := h i rfl
      exact Bool.eq_false_iff.mpr fun hsome => hne ((hi.results a hmem).mp hsome)
  exact {
    status := hu.status ha
    error := by
      rw [hget]
      simp
    completedAt := by
      rw [hget]
      simp
    results := fun a hmem => by
      rw [hget, hbase a hmem]
      simp only [List.mem_cons, List.not_mem_nil, or_false] at hmem
      rcases hmem with rfl | rfl | rfl <;> simp
    waiting := fun h => by cases h
    started := fun h => by rcases h with h | h <;> cases h }

/-- A `FAILED` record that is moved to `PROCESSING` keeps its `error`. -/
theorem Item.ShapedAs.revived (h : it.ShapedAs .failed)
    (ha : (processingUpdate now).apply j (some it) = .ok it') : ¬ it'.Shaped := by
  have hu : (processingUpdate now).Known := .processing now
  rintro ⟨st, hst⟩
  obtain rfl : JobStatus.processing = st := Option.some.inj ((hu.status ha).symm.trans hst.status)
  have herror : (it'.get "error").isSome = true := by
    rw [isSome_processing ha]
    simpa using h.error.mpr rfl
  cases hst.error.mp herror

/-- What `create_job` writes: a `PENDING` record, or its compensation. -/
theorem JobRecord.StoredAs.shaped {r : JobRecord} {intOfStr : String → Option Int}
    (h : r.StoredAs intOfStr it) (hst : r.status = .pending ∨ r.status = .failed)
    (herror : r.error.isSome = true ↔ r.status = .failed)
    (hdone : r.completedAt.isSome = true ↔ r.status = .failed) : it.ShapedAs r.status where
  status := h.status
  error := by rwa [h.error, Option.isSome_map]
  completedAt := by
    rw [h.completedAt, Option.isSome_map, hdone]
    rcases hst with h | h <;> simp [h]
  results a hmem := by
    rw [h.absent a (List.mem_cons_of_mem _ hmem)]
    rcases hst with h | h <;> simp [h]
  waiting _ := by
    rw [h.absent "started_at" List.mem_cons_self]
    rfl
  started hrun := by rcases hst with h | h <;> simp [h] at hrun

end Updates

/-! ## A process alone -/

/-- The answer does not move a `FAILED` record to `PROCESSING`. -/
def unrevived (s : Cloud) (q : Request) (ch : Choice) : Bool :=
  match q with
  | .updateItem j u =>
    !(u.target == some .processing && ch.fault.takesEffect && s.status j == some .failed)
  | _ => true

/-- A process that runs alone on the stores, with any faults; `ok` are the answers considered. -/
abbrev running (ext : Externals) (ok : Cloud → Request → Choice → Bool) :
    Interface Request Request.Resp Cloud where
  may := fun _ _ => True
  exec := fun s q r s' => ∃ ch, ok s q ch = true ∧ s.perform ext q ch = some (r, s')

/-- The stores after operations that ran one after another, each to its end or to a crash. -/
inductive Sequence (ext : Externals) (ok : Cloud → Request → Choice → Bool) : Cloud → Prop
  | start : Sequence ext ok Cloud.empty
  | create {s s' : Cloud} {config : Config} {u : Upload} {p : Py JobRecord} (h : Sequence ext ok s)
      (hrun : Steps (running ext ok) ((JobService.build config).createJob ext u) s p s') :
      Sequence ext ok s'
  | handle {s s' : Cloud} {own : Config} {msg : RawMessage} {p : Py Outcome}
      (h : Sequence ext ok s)
      (hrun : Steps (running ext ok) ((Worker.build own).handleMessage ext msg) s p s') :
      Sequence ext ok s'
  | redrive {s s' : Cloud} {mid : String} (h : Sequence ext ok s) (hs : s.redrive mid = some s') :
      Sequence ext ok s'

/-! ## What a worker knows of the status -/

/-- The journal has an update to the status, applied or not. -/
def Tried (t : List Ev) (st : JobStatus) : Prop :=
  ∃ v ∈ t, ∃ j u, v.1 = .updateItem j u ∧ u.target = some st

/-- The status of the job while its message is handled and nobody else writes. -/
structure Tracked (ext : Externals) (job : JobMessage) (s : Cloud) (t : List Ev) : Prop where
  looked : Looked ext job t → ¬ Tried t .complete → s.status job.jobId ≠ some .complete
  won : Won job t → ¬ Tried t .failed →
    s.status job.jobId = some .processing ∨ s.status job.jobId = some .complete

theorem Tracked.fresh {ext : Externals} {job : JobMessage} {s : Cloud} : Tracked ext job s [] := by
  constructor
  · rintro ⟨it, record, hv, -⟩
    cases hv
  · rintro ⟨now, hv⟩
    cases hv

section Steps

variable {ext : Externals} {ok : Cloud → Request → Choice → Bool} {s s' : Cloud} {ch : Choice}
  {w : Worker} {msg : RawMessage} {job : JobMessage} {t : List Ev}

theorem Tried.note {v : Ev} {st : JobStatus} (h : Tried t st) : Tried (note v t) st := by
  obtain ⟨v', hv', h⟩ := h
  exact ⟨v', mem_note_of_mem hv', h⟩

/-- A due `mark_complete` is not preceded by a `mark_failed`, nor the other way round. -/
theorem not_tried {j : String} {u : Update} {st target : JobStatus} (hu : u.target = some target)
    (hne : st ≠ target) (hst : st.isTerminal = true)
    (hnew : ∀ v ∈ t, v.1.isTerminalWrite = true → v.1 = .updateItem j u) : ¬ Tried t st := by
  rintro ⟨v, hv, j', u', hq, hu'⟩
  have hterminal : v.1.isTerminalWrite = true := by
    rw [hq]
    simp [Request.isTerminalWrite, hu', hst]
  have heq := hq.symm.trans (hnew v hv hterminal)
  cases heq
  exact hne (Option.some.inj (hu'.symm.trans hu))

theorem Tracked.quiet {q : Request} {r : q.Resp} (h : Tracked ext job s t)
    (htable : s'.table = s.table) (hread : ∀ j, q ≠ .getItem j)
    (hwin : ∀ u, (⟨q, r⟩ : Ev) ≠ updateOk job.jobId u) : Tracked ext job s' (note ⟨q, r⟩ t) := by
  have hstatus : s'.status job.jobId = s.status job.jobId := by
    rw [Cloud.status, htable, Cloud.status]
  constructor
  · rintro ⟨it, record, hv, hd⟩ hnot
    rw [hstatus]
    obtain hv | hv := mem_note hv
    · cases hv
      exact absurd rfl (hread _)
    · exact h.looked ⟨it, record, hv, hd⟩ fun ht => hnot ht.note
  · rintro ⟨now, hv⟩ hnot
    rw [hstatus]
    obtain hv | hv := mem_note hv
    · exact absurd hv.symm (hwin _)
    · exact h.won ⟨now, hv⟩ fun ht => hnot ht.note

/-- **What a permitted request does to what is known of the status.** -/
theorem Tracked.step {q : Request} {r : q.Resp} (hjob : msg.job? ext = some job)
    (hmay : WorkerMay w ext msg t q) (hp : s.perform ext q ch = some (r, s'))
    (h : Tracked ext job s t) : Tracked ext job s' (note ⟨q, r⟩ t) := by
  by_cases hread : ∃ j, q = .getItem j
  · obtain ⟨j, rfl⟩ := hread
    obtain ⟨rfl, -⟩ := hmay
    constructor
    · rintro ⟨it, record, hv, hd, hne⟩ -
      obtain hv | hv := mem_note hv
      · cases hv
        obtain ⟨hit, rfl⟩ := Prod.mk.inj (Option.some.inj (Cloud.perform_ok hp))
        obtain ⟨item, htable, hdec⟩ := decodes_of_decodeItem hd
        rw [Cloud.status, Except.ok.inj hit, htable, Option.bind_some, hdec.itemStatus]
        exact fun h => hne (Option.some.inj h)
      · cases hv
    · rintro ⟨now, hv⟩ -
      obtain hv | hv := mem_note hv
      · cases hv
      · cases hv
  by_cases hupdate : ∃ j u, q = .updateItem j u
  · obtain ⟨j, u, rfl⟩ := hupdate
    obtain ⟨job', hjob', rfl, hlooked, hdue⟩ := hmay
    obtain rfl := Option.some.inj (hjob.symm.trans hjob')
    obtain ⟨rfl, -, e, rfl, -⟩ | ⟨it, -, hit, rfl, -⟩ := Cloud.perform_updateItem hp
    · exact h.quiet rfl (fun _ h => by cases h) fun _ h => by cases h
    · have hstatus : (s.setItem job.jobId it).status job.jobId = u.target := by
        rw [Cloud.status, Cloud.setItem_table, if_pos rfl, Option.bind_some, hdue.known.status hit]
      have htried : ∀ st, u.target = some st → Tried (note ⟨.updateItem job.jobId u, r⟩ t) st :=
        fun st hst => ⟨_, List.mem_cons_self, _, _, rfl, hst⟩
      cases hdue with
      | processing now => exact ⟨fun _ _ => by simp [hstatus], fun _ _ => .inl hstatus⟩
      | complete ms now =>
        exact ⟨fun _ hnot => absurd (htried _ rfl) hnot, fun _ _ => .inr hstatus⟩
      | failed reason now =>
        exact ⟨fun _ _ => by simp [hstatus], fun _ hnot => absurd (htried _ rfl) hnot⟩
  · refine h.quiet ?_ (fun j hq => hread ⟨j, hq⟩) fun u hv => hupdate ⟨_, u, congrArg Sigma.fst hv⟩
    obtain rfl | he := Cloud.perform_effect hp
    · rfl
    · cases he with
      | object => rfl
      | send => rfl
      | delete => rfl
      | draw => rfl
      | put => exact hmay.elim
      | update => exact absurd ⟨_, _, rfl⟩ hupdate

/-! ## Every write keeps the shape -/

theorem Cloud.Shaped.setItem {j : String} {it : Item} (h : s.Shaped) (hit : it.Shaped) :
    (s.setItem j it).Shaped := by
  intro j' it' hget
  rw [Cloud.setItem_table] at hget
  split at hget
  · exact Option.some.inj hget ▸ hit
  · exact h j' it' hget

theorem shaped_update {u : Update} {it : Item} (hlooked : Looked ext job t)
    (hdue : UpdateDue w ext job t u) (h : Tracked ext job s t)
    (hok : u.target = some .processing → s.status job.jobId ≠ some .failed) (hs : s.Shaped)
    (hit : u.apply job.jobId (s.table job.jobId) = .ok it) : it.Shaped := by
  cases hdue with
  | processing now =>
    obtain ⟨i, hi, -⟩ := processing_condition hit
    obtain ⟨st, hshape⟩ := hs _ i hi
    rw [hi] at hit
    refine ⟨_, hshape.processing (fun hst => hok rfl ?_) hit⟩
    rw [Cloud.status, hi, Option.bind_some, hshape.status, hst]
  | complete ms now hwon hp hnew =>
    have hstatus := h.won hwon (not_tried rfl (by decide) rfl hnew)
    obtain ⟨i, hi⟩ : ∃ i, s.table job.jobId = some i := by
      cases htable : s.table job.jobId with
      | none => simp [Cloud.status, htable] at hstatus
      | some i => exact ⟨i, rfl⟩
    obtain ⟨st, hshape⟩ := hs _ i hi
    rw [hi] at hit
    refine ⟨_, hshape.complete ?_ hit⟩
    simpa [Cloud.status, hi, hshape.status] using hstatus
  | failed reason now hwhy hnew =>
    have hstatus := h.looked hlooked (not_tried rfl (by decide) rfl hnew)
    refine ⟨_, Item.ShapedAs.failed (fun i hi => ?_) hit⟩
    obtain ⟨st, hshape⟩ := hs _ i hi
    refine ⟨st, hshape, fun hst => hstatus ?_⟩
    rw [Cloud.status, hi, Option.bind_some, hshape.status, hst]

theorem shaped_handle {q : Request} {r : q.Resp} (hmay : WorkerMay w ext msg t q)
    (hok : unrevived s q ch = true) (hp : s.perform ext q ch = some (r, s'))
    (h : ∀ job, msg.job? ext = some job → Tracked ext job s t) (hs : s.Shaped) : s'.Shaped := by
  obtain rfl | he := Cloud.perform_effect hp
  · exact hs
  · cases he with
    | object => exact hs
    | send => exact hs
    | delete => exact hs
    | draw => exact hs
    | put => exact hmay.elim
    | @update j u it hit =>
      obtain ⟨heq, -⟩ | ⟨it', hf, -⟩ := Cloud.perform_updateItem hp
      · rw [heq]
        exact hs
      · obtain ⟨job, hjob, rfl, hlooked, hdue⟩ := hmay
        refine hs.setItem (shaped_update hlooked hdue (h job hjob) (fun hu hst => ?_) hs hit)
        simp [unrevived, hu, hf, hst] at hok

theorem shaped_put {svc : JobService} {u : Upload} {d : PyDict} {it : Item}
    (hmay : CallerMay svc ext u t (.putItem d)) (hd : serializeDict d = .ok it) : it.Shaped := by
  obtain ⟨r, hstory, -, ⟨rfl, -⟩ | ⟨⟨e, updatedAt, completedAt, rfl⟩, -⟩⟩ := hmay
  · obtain ⟨probe, jobId, traceId, createdAt, updatedAt, rfl⟩ := hstory.new
    have hstored : JobRecord.StoredAs _ ext.intOfStr it :=
      (newRecord_plain ext u probe jobId traceId createdAt updatedAt).storedAs hd
    refine ⟨_, hstored.shaped (.inl rfl) ?_ ?_⟩ <;> simp [JobService.newRecord]
  · have hstored : JobRecord.StoredAs _ ext.intOfStr it :=
      (unqueueable_plain hstory.plain e updatedAt completedAt).storedAs hd
    refine ⟨_, hstored.shaped (.inr rfl) ?_ ?_⟩ <;> simp [JobService.unqueueable]

theorem shaped_create {svc : JobService} {u : Upload} {q : Request} {r : q.Resp}
    (hmay : CallerMay svc ext u t q) (hp : s.perform ext q ch = some (r, s')) (hs : s.Shaped) :
    s'.Shaped := by
  obtain rfl | he := Cloud.perform_effect hp
  · exact hs
  · cases he with
    | object => exact hs
    | send => exact hs
    | delete => exact hs
    | draw => exact hs
    | put hd hj => exact hs.setItem (shaped_put hmay hd)
    | update => exact hmay.elim

/-! ## Sequences -/

theorem shaped_of_create {config : Config} {u : Upload} {p : Py JobRecord} (hs : s.Shaped)
    (hrun : Steps (running ext ok) ((JobService.build config).createJob ext u) s p s') :
    s'.Shaped := by
  obtain ⟨-, h⟩ := hrun.disciplined (J := fun s _ => s.Shaped)
    (wp_recorder_of_monitor (createJob_keeps (.build config) ext u))
    (fun s q r s' ⟨ch, _, hp⟩ => ⟨s, ch, s', hp⟩)
    (fun s t q r s' hmay ⟨ch, _, hp⟩ hs => shaped_create hmay hp hs) hs
  exact h

theorem shaped_of_handle {own : Config} {msg : RawMessage} {p : Py Outcome} (hs : s.Shaped)
    (hrun : Steps (running ext unrevived) ((Worker.build own).handleMessage ext msg) s p s') :
    s'.Shaped := by
  obtain ⟨-, -, h⟩ := hrun.disciplined
    (J := fun s t => (∀ job, msg.job? ext = some job → Tracked ext job s (journal t)) ∧ s.Shaped)
    (handling_keeps (.build own) ext msg) (fun s q r s' ⟨ch, _, hp⟩ => ⟨s, ch, s', hp⟩)
    (fun s t q r s' hmay ⟨ch, hok, hp⟩ ⟨htracked, hs⟩ =>
      ⟨fun job hjob => (htracked job hjob).step hjob hmay hp, shaped_handle hmay hok hp htracked hs⟩)
    ⟨fun job _ => Tracked.fresh, hs⟩
  exact h

end Steps

/-- **Every record has the documented shape**, in the stores after any operations one after another,
with any faults, redeliveries and crashes, of which none moves a `FAILED` record to `PROCESSING`. -/
theorem record_shaped {ext : Externals} {s : Cloud} (h : Sequence ext unrevived s) : s.Shaped := by
  induction h with
  | start => exact fun _ _ h => by cases h
  | create _ hrun ih => exact shaped_of_create ih hrun
  | handle _ hrun ih => exact shaped_of_handle ih hrun
  | redrive _ hs ih =>
    obtain ⟨m, -, -, rfl⟩ := Cloud.redrive_cases hs
    exact ih

section Scene
open Surroundings

/-- The stores when a process has run alone, one choice for each request it got answered. -/
def Cloud.after {α : Type} (s : Cloud) (ok : Cloud → Request → Choice → Bool) (m : Py α)
    (chs : List Choice) : Cloud :=
  match Prog.play (fun s q ch => if ok s q ch then s.perform small q ch else none) m s chs with
  | some (_, s', _) => s'
  | none => s

theorem Cloud.after_steps {α : Type} (s : Cloud) (ok : Cloud → Request → Choice → Bool) (m : Py α)
    (chs : List Choice) : ∃ p, Steps (running small ok) m s p (s.after ok m chs) := by
  unfold Cloud.after
  split
  · rename_i p s' _ hplay
    refine ⟨p, Prog.play_answered (fun s q ch r s' h => ?_) hplay⟩
    split at h
    · rename_i hok
      exact ⟨ch, hok, h⟩
    · cases h
  · exact ⟨m, .refl m s⟩

/-- An upload without a fault, and two deliveries of its message: a worker that crashes after `n`
requests, and one that gets as far as `k` requests. -/
def redelivered (ok : Cloud → Request → Choice → Bool) (u : Upload) (n k : Nat) : Cloud :=
  ((Cloud.empty.after ok ((JobService.build config).createJob small u)
      [plain, { text := jobId }, plain, plain, plain, plain, plain, plain, { text := messageId },
        plain, plain]).after ok
    handleMessageBody (List.replicate n plain)).after ok handleMessageBody (List.replicate k plain)

theorem sequence_redelivered (ok : Cloud → Request → Choice → Bool) (u : Upload) (n k : Nat) :
    Sequence small ok (redelivered ok u n k) := by
  have hdelivery : ∀ {s : Cloud} (m : Nat), Sequence small ok s →
      Sequence small ok (s.after ok handleMessageBody (List.replicate m plain)) := by
    intro s m hs
    obtain ⟨p, hrun⟩ := s.after_steps ok handleMessageBody (List.replicate m plain)
    generalize s.after ok handleMessageBody (List.replicate m plain) = s' at hrun ⊢
    rw [← handleMessage_delivery] at hrun
    exact .handle hs hrun
  obtain ⟨p, hrun⟩ := Cloud.empty.after_steps ok ((JobService.build config).createJob small u)
    [plain, { text := jobId }, plain, plain, plain, plain, plain, plain, { text := messageId }, plain,
      plain]
  exact hdelivery k (hdelivery n (.create .start hrun))

/-- A worker that crashes between `mark_failed` and the delete. The redelivery is moved to
`PROCESSING`. -/
theorem record_unshaped : ∃ s it, Sequence small (fun _ _ _ => true) s ∧ s.table jobId = some it ∧
    it.status = some .processing ∧ (it.get "error").isSome = true ∧
    (it.get "completed_at").isSome = true ∧ ¬ it.Shaped := by
  have hitem : (((redelivered (fun _ _ _ => true) poisonUpload 19 4).table jobId).any fun it =>
      decide (it.status = some .processing) && (it.get "error").isSome &&
        (it.get "completed_at").isSome) = true := by
    rfl
  obtain ⟨it, hit, hall⟩ := (Option.any_eq_true _ _).mp hitem
  simp only [Bool.and_eq_true, decide_eq_true_eq] at hall
  obtain ⟨⟨hst, herror⟩, hdone⟩ := hall
  refine ⟨_, it, sequence_redelivered _ poisonUpload 19 4, hit, hst, herror, hdone, ?_⟩
  rintro ⟨st, hshape⟩
  obtain rfl := Option.some.inj (hst.symm.trans hshape.status)
  cases hshape.error.mp herror

/-- A job that is completed by the redelivery after a crash. -/
theorem record_shaped_completed : ∃ s : Cloud, s.status jobId = some .complete ∧ s.Shaped :=
  ⟨redelivered unrevived goodUpload 10 29, by rfl,
    record_shaped (sequence_redelivered unrevived goodUpload 10 29)⟩

end Scene

end PixelForge
