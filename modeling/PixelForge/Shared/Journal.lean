import PixelForge.Shared.Images

/-! # The journal of a run

Of everything a run asks, its *journal* keeps the writes it tried, the reads, uploads and deletes
that were answered, and the increments of `jobs_processed`. What a service may ask is a condition
on its journal; the rules below say what a wrapper of `shared/aws.py` adds to it.
-/
set_option autoImplicit false

namespace PixelForge
open Effects

/-- Whether an event is kept. -/
def Ev.counts (v : Ev) : Bool :=
  match v.1 with
  | .updateItem _ _ => true
  | .putItem _ => true
  | .sendMessage _ _ => true
  | .uuid4 => true
  | .metric (.jobsProcessed _) => true
  | .getItem _ => returned v
  | .getObject _ _ => returned v
  | .putObject _ _ _ _ => returned v
  | .deleteMessage _ => returned v
  | _ => false

def note (v : Ev) (t : List Ev) : List Ev := if v.counts then v :: t else t

/-- The journal of a history, latest first. -/
def journal (h : History) : List Ev := h.foldr note []

@[simp] theorem journal_nil : journal [] = [] := rfl

theorem journal_cons (v : Ev) (h : History) : journal (v :: h) = note v (journal h) := rfl

theorem journal_eq_filter (h : History) : journal h = h.filter Ev.counts := by
  induction h with
  | nil => rfl
  | cons v h ih => rw [journal_cons, ih, note, List.filter_cons]

theorem mem_of_mem_journal {v : Ev} {h : History} (hv : v ∈ journal h) : v ∈ h := by
  rw [journal_eq_filter] at hv
  exact List.mem_of_mem_filter hv

theorem mem_journal {v : Ev} {h : History} (hc : v.counts = true) (hv : v ∈ h) :
    v ∈ journal h := by
  rw [journal_eq_filter]
  exact List.mem_filter.mpr ⟨hv, hc⟩

theorem counts_of_mem_journal {v : Ev} {h : History} (hv : v ∈ journal h) : v.counts = true := by
  rw [journal_eq_filter] at hv
  exact (List.mem_filter.mp hv).2

/-- Requests that leave the stores alone and are never kept. -/
def Request.isSilent : Request → Bool
  | .putObject _ _ _ _ => false
  | .getObject _ _ => false
  | .headBucket _ => false
  | .putItem _ => false
  | .getItem _ => false
  | .updateItem _ _ => false
  | .sendMessage _ _ => false
  | .receiveMessage _ _ => false
  | .deleteMessage _ => false
  | .changeMessageVisibility _ _ => false
  | .getQueueAttributes => false
  | .uuid4 => false
  | .metric (.jobsProcessed _) => false
  | _ => true

theorem note_silent {q : Request} (hq : q.isSilent = true) (r : q.Resp) (t : List Ev) :
    note ⟨q, r⟩ t = t := by
  cases q with
  | metric m => cases m <;> first | rfl | cases hq
  | _ => first | rfl | cases hq

/-- Requests that never raise. -/
def Request.isSteady : Request → Bool
  | .rmtree => true
  | .stopHeartbeat => true
  | .utcNow => true
  | .elapsedMs => true
  | .uuid4 => true
  | .uniform _ => true
  | .sleep _ => true
  | .currentTraceId => true
  | .injectTraceContext => true
  | .bindJobContext _ => true
  | .clearJobContext => true
  | .metric _ => true
  | _ => false

theorem Cloud.Answers.steady {ext : Externals} {q : Request} {r : q.Resp}
    (h : Cloud.Answers ext q r) (hq : q.isSteady = true) : ∃ v, r = .ok v := by
  obtain ⟨s, ch, s', h⟩ := h
  obtain h | ⟨e, -, he, -⟩ := perform_cases h
  · cases q with
    | uuid4 =>
      simp only [serve] at h
      split at h
      · cases h
      · exact ⟨_, (Prod.mk.inj (Option.some.inj h)).1.symm⟩
    | uniform high =>
      simp only [serve] at h
      split at h
      · exact ⟨_, (Prod.mk.inj (Option.some.inj h)).1.symm⟩
      · cases h
    | _ => first | exact ⟨_, (Prod.mk.inj (Option.some.inj h)).1.symm⟩ | cases hq
  · cases q <;> first | (simp [Request.canFail] at he; done) | cases hq

/-- The calls to AWS. -/
def Request.isAws : Request → Bool
  | .putObject _ _ _ _ => true
  | .getObject _ _ => true
  | .readBody _ => true
  | .headBucket _ => true
  | .putItem _ => true
  | .getItem _ => true
  | .updateItem _ _ => true
  | .sendMessage _ _ => true
  | .receiveMessage _ _ => true
  | .deleteMessage _ => true
  | .changeMessageVisibility _ _ => true
  | .getQueueAttributes => true
  | _ => false

/-- The requests that Pillow answers. -/
def Request.isPillow : Request → Bool
  | .verifyImage _ => true
  | .openImage _ => true
  | .renderOne _ _ => true
  | _ => false

theorem Request.canFail_not_own {q : Request} {e : Exc} (h : q.canFail e = true) :
    e.isOwn = false := by
  cases e <;> first | rfl | (cases q <;> cases h)

theorem Update.apply_not_own {u : Update} {j : String} {it : Option Item} {e : Exc}
    (h : u.apply j it = .error e) : e.isOwn = false := by
  unfold Update.apply at h
  split at h
  · rename_i hs
    cases h
    obtain ⟨cls, text, rfl⟩ := serializeDict_error _ hs
    rfl
  · split at h <;> cases h
    rfl

/-- Only Pillow's answers can raise an exception of the repository. -/
theorem Cloud.Answers.not_own {ext : Externals} {q : Request} {e : Exc}
    (h : Cloud.Answers ext q (.error e)) (hq : q.isPillow = false) : e.isOwn = false := by
  obtain ⟨s, ch, s', h⟩ := h
  obtain h | ⟨e', he', hc, -⟩ := perform_cases h
  · cases q with
    | getObject b k =>
      simp only [serve] at h
      split at h <;> cases h
      rfl
    | putItem d =>
      simp only [serve] at h
      split at h
      · rename_i hs
        cases h
        obtain ⟨cls, text, rfl⟩ := serializeDict_error _ hs
        rfl
      · split at h <;> cases h
        rfl
    | updateItem j u =>
      simp only [serve] at h
      split at h <;> cases h
      exact Update.apply_not_own ‹_›
    | sendMessage body attributes =>
      simp only [serve] at h
      split at h <;> cases h
    | uniform high =>
      simp only [serve] at h
      split at h <;> cases h
    | uuid4 =>
      simp only [serve] at h
      split at h <;> cases h
    | deleteMessage r =>
      simp only [serve] at h
      split at h <;> cases h
    | receiveMessage n wait =>
      simp only [serve] at h
      split at h
      · split at h <;> cases h
      · cases h
    | _ => first | (simp [Request.isPillow] at hq; done) | cases h
  · cases he'
    exact Request.canFail_not_own hc

theorem Cloud.Answers.not_image {ext : Externals} {q : Request} {e : Exc}
    (h : Cloud.Answers ext q (.error e)) (hq : q.isPillow = false) : e.isImage = false := by
  have hown := h.not_own hq
  cases e <;> first | rfl | cases hown

theorem Cloud.Answers.ok {ext : Externals} {q : Request} {v : q.Val}
    (h : Cloud.Answers ext q (.ok v)) : ∃ s ch s', serve ext s q ch = some (.ok v, s') := by
  obtain ⟨s, ch, s', h⟩ := h
  exact ⟨s, ch, s', perform_ok h⟩

/-! ## The rules -/

/-- The interface that keeps the journal. -/
def watch (ext : Externals) (may : List Ev → Request → Prop) :
    Interface Request Request.Resp (List Ev) :=
  monitor note may (Cloud.Answers ext)

section Rules

variable {ext : Externals} {may : List Ev → Request → Prop} {t : List Ev} {q : Request}
  {Q : q.Val → List Ev → Prop} {X : Exc → List Ev → Prop}

theorem wp_watch_ask (hmay : may t q)
    (hok : ∀ v, Cloud.Answers ext q (.ok v) → Q v (note ⟨q, .ok v⟩ t))
    (herr : ∀ e, Cloud.Answers ext q (.error e) → X e (note ⟨q, .error e⟩ t)) :
    Fallible.wp (watch ext may) (ask q) Q X t := by
  refine (wp_ask q Q X t).mpr ⟨hmay, ?_⟩
  rintro (e | v) _ ⟨ha, rfl⟩
  · exact herr e ha
  · exact hok v ha

theorem wp_watch_steady (hq : q.isSteady = true) (hmay : may t q)
    (hok : ∀ v, Cloud.Answers ext q (.ok v) → Q v (note ⟨q, .ok v⟩ t)) :
    Fallible.wp (watch ext may) (ask q) Q X t := by
  refine wp_watch_ask hmay hok fun e he => ?_
  obtain ⟨v, hv⟩ := he.steady hq
  cases hv

/-- Some failed attempts at `q`. -/
def Attempts (q : Request) (t t' : List Ev) : Prop :=
  ∃ fails : List Ev, t' = fails ++ t ∧ ∀ v ∈ fails, ∃ e, v = ⟨q, .error e⟩

theorem Attempts.refl (q : Request) (t : List Ev) : Attempts q t t :=
  ⟨[], rfl, fun _ h => absurd h List.not_mem_nil⟩

theorem Attempts.again {t t' : List Ev} (h : Attempts q t t') (e : Exc) :
    Attempts q t (note ⟨q, .error e⟩ t') := by
  obtain ⟨fails, rfl, hf⟩ := h
  unfold note
  split
  · refine ⟨⟨q, .error e⟩ :: fails, rfl, fun v hv => ?_⟩
    obtain rfl | hv := List.mem_cons.mp hv
    · exact ⟨e, rfl⟩
    · exact hf v hv
  · exact ⟨fails, rfl, hf⟩

theorem Attempts.mem {t t' : List Ev} (h : Attempts q t t') {v : Ev} (hv : v ∈ t) : v ∈ t' := by
  obtain ⟨fails, rfl, -⟩ := h
  exact List.mem_append_right _ hv

theorem Attempts.cases {t t' : List Ev} (h : Attempts q t t') {v : Ev} (hv : v ∈ t') :
    v ∈ t ∨ ∃ e, v = ⟨q, .error e⟩ := by
  obtain ⟨fails, rfl, hf⟩ := h
  exact (List.mem_append.mp hv).symm.imp id (hf v)

variable (hsilent : ∀ t q, q.isSilent = true → may t q)
include hsilent

variable (q) in
/-- **The ladder around one request**: every attempt may find more failed attempts in the
journal. -/
theorem wp_retry_attempts (policy : RetryPolicy) (operation : String)
    (hmay : ∀ t', Attempts q t t' → may t' q)
    (hok : ∀ v t', Attempts q t t' → Cloud.Answers ext q (.ok v) → Q v (note ⟨q, .ok v⟩ t'))
    (hraise : ∀ e t', Attempts q t t' → Cloud.Answers ext q (.error e) →
      X e (note ⟨q, .error e⟩ t'))
    (hgiveUp : ∀ e t', Attempts q t t' → e.isGiveUp = true → X e t') :
    Fallible.wp (watch ext may) (callWithRetry policy operation noSwallow (ask q)) Q X t := by
  refine wp_callWithRetry (J := Attempts q t) policy operation (fun t' h => hmay t' h)
    (fun t' q' h hq' => ?_) ?_ ?_ ?_ (fun t' e h he => hgiveUp e t' h he) (.refl q t)
  · have hs : q'.isSilent = true := by cases q' <;> first | rfl | cases hq'
    have hst : q'.isSteady = true := by cases q' <;> first | rfl | cases hq'
    refine ⟨hsilent t' q' hs, ?_⟩
    rintro r _ ⟨ha, rfl⟩
    exact ⟨(note_silent hs r t').symm ▸ h, ha.steady hst⟩
  · rintro t' v _ h ⟨ha, rfl⟩
    exact hok v t' h ha
  · rintro t' e _ h ⟨-, rfl⟩ -
    exact h.again e
  · rintro t' e _ h ⟨ha, rfl⟩ -
    exact hraise e t' h ha

variable (q) in
theorem wp_retry (policy : RetryPolicy) (operation : String)
    (hquiet : ∀ e, Ev.counts ⟨q, .error e⟩ = false) (hmay : may t q)
    (hok : ∀ v, Cloud.Answers ext q (.ok v) → Q v (note ⟨q, .ok v⟩ t))
    (herr : ∀ e, e.isGiveUp = true ∨ Cloud.Answers ext q (.error e) → X e t) :
    Fallible.wp (watch ext may) (callWithRetry policy operation noSwallow (ask q)) Q X t := by
  have hnote : ∀ e, note ⟨q, .error e⟩ t = t := fun e => by simp [note, hquiet e]
  refine wp_callWithRetry (J := (· = t)) policy operation ?_ (fun t' q' h hq' => ?_) ?_ ?_ ?_ ?_ rfl
  · rintro _ rfl
    exact hmay
  · have hs : q'.isSilent = true := by cases q' <;> first | rfl | cases hq'
    have hst : q'.isSteady = true := by cases q' <;> first | rfl | cases hq'
    refine ⟨hsilent t' q' hs, ?_⟩
    rintro r _ ⟨ha, rfl⟩
    exact ⟨(note_silent hs r t').trans h, ha.steady hst⟩
  · rintro _ v _ rfl ⟨ha, rfl⟩
    exact hok v ha
  · rintro _ e _ rfl ⟨-, rfl⟩ -
    exact hnote e
  · rintro _ e _ rfl ⟨ha, rfl⟩ -
    exact (hnote e).symm ▸ herr e (.inr ha)
  · rintro _ e rfl he
    exact herr e (.inl he)

/-- A failed SQS call is counted, and that is all `_call` adds to the ladder. -/
theorem wp_jobQueue_call {α : Type} {Q : α → List Ev → Prop} (queue : JobQueue)
    (operation : String) (func : Py α)
    (h : Fallible.wp (watch ext may) (callWithRetry queue.policy operation noSwallow func) Q X t) :
    Fallible.wp (watch ext may) (queue.call operation func) Q X t := by
  rw [JobQueue.call, Fallible.wp_tryExcept]
  refine Fallible.wp_mono h (fun _ _ hq => hq) fun e t' hx => ?_
  exact (Fallible.wp_bind _ _ _).mpr (wp_watch_steady rfl (hsilent _ _ rfl) fun _ _ => hx)

/-- `render_thumbnails` renders every size once, in order, and adds nothing to the journal. -/
theorem wp_renderThumbnails (data : Bytes) (sizes : List Nat) {Q : Rendering → List Ev → Prop}
    (hok : ∀ pic exif thumbs, ext.Opens data pic → extractExif ext pic.exif = .ok exif →
      thumbs.map (·.size) = sortedSizes sizes →
      (∀ th ∈ thumbs, ext.Renders data th.size ⟨th.data, th.width, th.height⟩) →
      Q ⟨thumbs, exif, pic.width, pic.height, pic.sourceFormat⟩ t)
    (herr : ∀ e, X e t) :
    Fallible.wp (watch ext may) (renderThumbnails ext ⟨data⟩ sizes) Q X t := by
  refine (Fallible.wp_bind _ _ _).mpr (wp_watch_ask (hsilent _ _ rfl) (fun payload hread => ?_)
    fun e _ => herr e)
  obtain ⟨s, ch, s', hread⟩ := hread.ok
  obtain rfl : data = payload := by
    simp only [Cloud.serve] at hread
    exact Except.ok.inj (Prod.mk.inj (Option.some.inj hread)).1
  refine (Fallible.wp_tryElse _ _ _ _).mpr ((Fallible.wp_bind _ _ _).mpr
    (wp_watch_ask (hsilent _ _ rfl) (fun pic hopen => ?_) fun e _ => herr _))
  have hpic : ext.Opens data pic := by
    obtain ⟨s, ch, s', h⟩ := hopen.ok
    exact ⟨ch.seed, (Prod.mk.inj (Option.some.inj h)).1⟩
  refine (Fallible.wp_bind _ _ _).mpr (Fallible.wp_ofExcept (fun exif hexif => ?_) fun e _ => herr _)
  refine (Fallible.wp_bind _ _ _).mpr (Fallible.wp_mono (Fallible.wp_forEach
    (J := fun done rest t' => t' = t ∧ done.map (·.size) ++ rest = sortedSizes sizes ∧
      ∀ th ∈ done, ext.Renders data th.size ⟨th.data, th.width, th.height⟩)
    (X := fun _ t' => t' = t) (sortedSizes sizes) (fun done size rest t' hJ => ?_) [] t
    ⟨rfl, rfl, fun _ h => absurd h List.not_mem_nil⟩) ?_ ?_)
  · obtain ⟨rfl, hsizes, hrend⟩ := hJ
    refine (Fallible.wp_bind _ _ _).mpr (wp_watch_ask (hsilent _ _ rfl) (fun th hth => ?_)
      fun e _ => rfl)
    obtain ⟨s, ch, s', h⟩ := hth.ok
    have hrender : ext.renderOne ch.seed pic size = .ok th := (Prod.mk.inj (Option.some.inj h)).1
    refine ⟨rfl, by simpa [RenderedThumbnail.ofEncoded] using hsizes, fun th' hth' => ?_⟩
    obtain hth' | rfl := by simpa using hth'
    · exact hrend th' hth'
    · exact ⟨pic, ch.seed, hpic, hrender⟩
  · rintro thumbs t' ⟨rfl, hsizes, hrend⟩
    exact hok pic exif thumbs hpic hexif (by simpa using hsizes) hrend
  · rintro e t' rfl
    exact herr _

end Rules

end PixelForge
