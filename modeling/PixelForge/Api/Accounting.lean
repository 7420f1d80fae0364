import PixelForge.Api.Routes
import PixelForge.Effects.Replay
import PixelForge.Shared.Journal
import PixelForge.Shared.Surroundings

/-! # The accounting of uploads

`uploads_total` is counted in three places: in the service when the job is queued, in the route when
anything but a rejection is raised, and in the exception handler of rejections. `Uncounted m` says
that `m` is none of them and raises no rejection that passes for an acceptance.
-/
set_option autoImplicit false

namespace PixelForge
open Effects

def noteUpload (v : Ev) (t : List String) : List String :=
  match v.1 with
  | .metric (.uploads result) => result :: t
  | _ => t

/-- The labels under which `uploads_total` was incremented, latest first. -/
def uploadResults (h : History) : List String := h.foldr noteUpload []

/-- The status of the response. What no handler takes is answered by the server. -/
def responseStatus : Except Exc Response → Nat
  | .ok response => response.status
  | .error _ => 500

/-- A rejection is neither answered nor counted as an acceptance. -/
def Exc.Honest : Exc → Prop
  | .uploadRejected _ status _ result => status ≠ 202 ∧ result ≠ "accepted"
  | _ => True

/-- Programs with the labels for a state. -/
def tallied (ext : Externals) : Interface Request Request.Resp (List String) :=
  monitor noteUpload (fun _ _ => True) (Cloud.Answers ext)

/-- Pillow raises none of the repository's exceptions when it verifies an upload. -/
def Externals.VerifyForeign (ext : Externals) : Prop :=
  ∀ seed data e, ext.verifyImage seed data = .error e → e.isOwn = false

/-- `m` counts nothing. -/
abbrev Uncounted {α : Type} (ext : Externals) (t : List String) (m : Py α) : Prop :=
  Fallible.wp (tallied ext) m (fun _ t' => t' = t) (fun e t' => t' = t ∧ e.Honest) t

theorem Exc.honest_of_not_own {e : Exc} (h : e.isOwn = false) : e.Honest := by
  cases e with
  | uploadRejected d s c m => cases h
  | _ => trivial

theorem Exc.honest_of_giveUp {e : Exc} (h : e.isGiveUp = true) : e.Honest := by
  cases e with
  | uploadRejected d s c m => cases h
  | _ => trivial

/-! ## What counts nothing -/

section Quiet

variable {ext : Externals} {t : List String}

theorem Uncounted.bind {α β : Type} {m : Py α} {f : α → Py β} (hm : Uncounted ext t m)
    (hf : ∀ a, Uncounted ext t (f a)) :
    Uncounted ext t (Bind.bind (m := Fallible Request Request.Resp Exc) m f) := by
  refine (Fallible.wp_bind _ _ _).mpr (Fallible.wp_mono hm ?_ fun _ _ h => h)
  rintro a _ rfl
  exact hf a

theorem uncounted_ask {q : Request} (hq : q.isPillow = false)
    (hnote : ∀ r : q.Resp, noteUpload ⟨q, r⟩ t = t := by exact fun _ => rfl) :
    Uncounted ext t (ask q) := by
  refine (wp_ask q _ _ _).mpr ⟨trivial, ?_⟩
  rintro (e | v) _ ⟨ha, rfl⟩
  · exact ⟨hnote _, Exc.honest_of_not_own (ha.not_own hq)⟩
  · exact hnote _

theorem uncounted_retry (q : Request) (policy : RetryPolicy) (operation : String)
    (hq : q.isPillow = false := by rfl)
    (hnote : ∀ (r : q.Resp), noteUpload ⟨q, r⟩ t = t := by exact fun _ => rfl) :
    Uncounted ext t (callWithRetry policy operation noSwallow (ask q)) := by
  refine wp_callWithRetry (J := (· = t)) policy operation (fun _ _ => trivial)
    (fun t' q' ht hwait => ⟨trivial, ?_⟩) ?_ ?_ ?_ (fun t' e ht he => ⟨ht, e.honest_of_giveUp he⟩) rfl
  · rintro r _ ⟨ha, rfl⟩
    have hsteady : q'.isSteady = true := by cases q' <;> first | rfl | cases hwait
    refine ⟨?_, ha.steady hsteady⟩
    cases q' <;> first | exact ht | cases hwait
  · rintro _ v _ rfl ⟨-, rfl⟩
    exact hnote _
  · rintro _ e _ rfl ⟨-, rfl⟩ -
    exact hnote _
  · rintro _ e _ rfl ⟨ha, rfl⟩ -
    exact ⟨hnote _, Exc.honest_of_not_own (ha.not_own hq)⟩

/-! ## The service -/

variable {svc : JobService}

theorem uncounted_validateUpload (contentType : Option String) (sizeBytes : Nat) :
    Uncounted ext t (svc.validateUpload ext contentType sizeBytes) := by
  unfold JobService.validateUpload
  split
  · exact ⟨rfl, by decide, by decide⟩
  · dsimp only
    split
    · rfl
    · exact ⟨rfl, by decide, by decide⟩

theorem answers_verifyImage {data : Bytes} {e : Exc}
    (h : Cloud.Answers ext (.verifyImage data) (.error e)) :
    ∃ seed, ext.verifyImage seed data = .error e := by
  obtain ⟨s, ch, s', h⟩ := h
  obtain h | ⟨e', -, hc, -⟩ := Cloud.perform_cases h
  · exact ⟨ch.seed, (Prod.mk.inj (Option.some.inj h)).1⟩
  · cases hc

theorem probeError_cases {e : Exc} (he : e.isOwn = false) :
    (probeError e).isImage = true ∨ (probeError e).isOwn = false := by
  unfold probeError
  split
  all_goals first | exact .inl rfl | exact .inr he

/-- The gate raises what Pillow raises, or a rejection. -/
theorem uncounted_probeUpload (hpillow : ext.VerifyForeign) (data : Bytes) :
    Uncounted ext t (JobService.probeUpload data) := by
  have hprobe : Fallible.wp (tallied ext) (probeImage data) (fun _ t' => t' = t)
      (fun e t' => t' = t ∧ (e.isImage = true ∨ e.isOwn = false)) t := by
    unfold probeImage
    split
    · exact ⟨rfl, .inl rfl⟩
    · refine (Fallible.wp_tryElse _ _ _ _).mpr ((wp_ask _ _ _ _).mpr ⟨trivial, ?_⟩)
      rintro (e | header) _ ⟨ha, rfl⟩
      · obtain ⟨seed, he⟩ := answers_verifyImage ha
        exact ⟨rfl, probeError_cases (hpillow seed data e he)⟩
      · dsimp only
        split
        · exact ⟨rfl, .inl rfl⟩
        · split
          · exact ⟨rfl, .inl rfl⟩
          · rfl
  refine (Fallible.wp_tryExcept _ _).mpr (Fallible.wp_mono hprobe (fun _ _ h => h) ?_)
  rintro e _ ⟨rfl, he⟩
  cases e with
  | imageProcessing text => exact ⟨rfl, by decide, by decide⟩
  | uploadRejected d s c m => simp [Exc.isImage, Exc.isOwn] at he
  | _ => exact ⟨rfl, trivial⟩

theorem uncounted_markUnqueueable (record : JobRecord) (e : Exc) :
    Fallible.wp (tallied ext) (svc.markUnqueueable record e) (fun _ t' => t' = t)
      (fun _ _ => False) t := by
  have hput : Uncounted ext t (do
      let updatedAt : String ← ask .utcNow
      let completedAt : String ← ask .utcNow
      svc.clients.table.putJob (JobService.unqueueable record e updatedAt completedAt) : Py Unit) :=
    (uncounted_ask rfl).bind fun _ => (uncounted_ask rfl).bind fun _ => uncounted_retry (.putItem _) _ _
  exact (Fallible.wp_tryExcept _ _).mpr (Fallible.wp_mono hput (fun _ _ h => h) fun _ _ h => h.1)

theorem uncounted_sendJob (body : String) (attributes : List (String × String)) :
    Uncounted ext t (svc.clients.queue.sendJob body attributes) := by
  refine (Fallible.wp_tryExcept _ _).mpr (Fallible.wp_mono (uncounted_retry (.sendMessage _ _) _ _)
    (fun _ _ h => h) ?_)
  rintro e _ ⟨rfl, he⟩
  refine (Fallible.wp_bind _ _ _).mpr (Fallible.wp_mono
    (uncounted_ask (q := .metric (.sqsErrors _)) rfl) ?_ fun _ _ h => h)
  rintro _ _ rfl
  exact ⟨rfl, he⟩

/-- Counted as accepted, or not counted and no false rejection. -/
abbrev AcceptsOnce {α : Type} (ext : Externals) (t : List String) (m : Py α) : Prop :=
  Fallible.wp (tallied ext) m (fun _ t' => t' = "accepted" :: t) (fun e t' => t' = t ∧ e.Honest) t

theorem AcceptsOnce.after {α β : Type} {m : Py α} {f : α → Py β} (hm : Uncounted ext t m)
    (hf : ∀ a, AcceptsOnce ext t (f a)) :
    AcceptsOnce ext t (Bind.bind (m := Fallible Request Request.Resp Exc) m f) := by
  refine (Fallible.wp_bind _ _ _).mpr (Fallible.wp_mono hm ?_ fun _ _ h => h)
  rintro a _ rfl
  exact hf a

theorem acceptsOnce_enqueue (u : Upload) (record : JobRecord) :
    AcceptsOnce ext t (svc.enqueue ext u record) := by
  refine .after (uncounted_ask rfl) fun context => ?_
  refine (Fallible.wp_tryElse _ _ _ _).mpr (Fallible.wp_mono (uncounted_sendJob _ _) ?_ ?_)
  · rintro mid _ rfl
    refine (Fallible.wp_bind _ _ _).mpr ((wp_ask _ _ _ _).mpr ⟨trivial, ?_⟩)
    rintro r _ ⟨ha, rfl⟩
    obtain ⟨v, rfl⟩ := ha.steady rfl
    refine (Fallible.wp_bind _ _ _).mpr ((wp_ask _ _ _ _).mpr ⟨trivial, ?_⟩)
    rintro r _ ⟨ha, rfl⟩
    obtain ⟨v, rfl⟩ := ha.steady rfl
    rfl
  · rintro e _ ⟨rfl, -⟩
    refine (Fallible.wp_bind _ _ _).mpr (Fallible.wp_mono (uncounted_markUnqueueable record e) ?_
      fun _ _ h => h.elim)
    rintro _ _ rfl
    exact ⟨rfl, trivial⟩

theorem acceptsOnce_createJob (hpillow : ext.VerifyForeign) (u : Upload) :
    AcceptsOnce ext t (svc.createJob ext u) :=
  .after (uncounted_validateUpload _ _) fun _ => .after (uncounted_probeUpload hpillow _) fun _ =>
    .after (uncounted_ask rfl) fun _ => .after (uncounted_ask rfl) fun _ =>
      .after (uncounted_ask rfl) fun _ => .after (uncounted_ask rfl) fun _ =>
        .after (uncounted_retry (.putObject ..) _ _) fun _ =>
          .after (uncounted_retry (.putItem _) _ _) fun _ => acceptsOnce_enqueue u _

/-! ## The route -/

theorem uncounted_checkDeclaredLength (maxBytes : Int) {contentLength : Option String}
    (hlength : ∀ d, contentLength = some d → d.length ≤ 20 ∧ d.toList.all Char.isDigit = true) :
    Fallible.wp (tallied ext) (Routes.checkDeclaredLength maxBytes contentLength)
      (fun _ t' => t' = t) (fun e t' => t' = t ∧ e = Routes.tooLarge maxBytes) t := by
  cases contentLength with
  | none => rfl
  | some declared =>
    obtain ⟨hshort, hdigits⟩ := hlength declared rfl
    simp only [Routes.checkDeclaredLength]
    split
    · rw [Routes.intOfDigits_of_digits hdigits (by omega)]
      dsimp only
      split
      · exact ⟨rfl, rfl⟩
      · rfl
    · rfl

theorem uncounted_readLoop (maxBytes : Int) (reads : List (Except Exc Bytes))
    (hforeign : ∀ e, .error e ∈ reads → e.isOwn = false) (chunks : List Bytes) (total : Nat) :
    Uncounted ext t (Routes.readLoop maxBytes chunks total reads) := by
  induction reads generalizing chunks total with
  | nil => rfl
  | cons read reads ih =>
    cases read with
    | error e => exact ⟨rfl, Exc.honest_of_not_own (hforeign e List.mem_cons_self)⟩
    | ok chunk =>
      rw [Routes.readLoop]
      split
      · rfl
      · split
        · exact ⟨rfl, by decide, by decide⟩
        · exact ih (fun e he => hforeign e (List.mem_cons_of_mem _ he)) _ _

/-- Whether an exception is counted by its handler. -/
def Exc.isRejection : Exc → Bool
  | .uploadRejected _ _ _ _ => true
  | _ => false

/-- What leaves the `try` of `create_job` is counted unless it is a rejection. -/
theorem wp_accept (hpillow : ext.VerifyForeign) (file : UploadFile) :
    Fallible.wp (tallied ext) (Routes.accept svc ext file) (fun _ t' => t' = "accepted" :: t)
      (fun e t' => e.Honest ∧ t' = if e.isRejection then t else "error" :: t) t := by
  have htry : AcceptsOnce ext t (do
      let data ← Routes.readLimited file svc.config.maxUploadBytes
      svc.createJob ext ⟨data, file.filename, file.contentType⟩ : Py JobRecord) :=
    .after (uncounted_readLoop _ _ file.foreign _ _) fun _ => acceptsOnce_createJob hpillow _
  refine (Fallible.wp_tryExcept _ _).mpr (Fallible.wp_mono htry (fun _ _ h => h) ?_)
  rintro e _ ⟨rfl, he⟩
  cases e with
  | uploadRejected d s c m => exact ⟨he, rfl⟩
  | _ =>
    refine (Fallible.wp_bind _ _ _).mpr ((wp_ask _ _ _ _).mpr ⟨trivial, ?_⟩)
    rintro r _ ⟨ha, rfl⟩
    obtain ⟨v, rfl⟩ := ha.steady rfl
    exact ⟨trivial, rfl⟩

theorem wp_createJob (hpillow : ext.VerifyForeign) {contentLength : Option String}
    (hlength : ∀ d, contentLength = some d → d.length ≤ 20 ∧ d.toList.all Char.isDigit = true)
    (file : UploadFile) :
    Fallible.wp (tallied ext) (Routes.createJob svc ext contentLength file)
      (fun response t => response.status = 202 ∧ t = ["accepted"])
      (fun e t => e.Honest ∧ t = if e.isRejection then [] else ["error"]) [] := by
  refine (Fallible.wp_bind _ _ _).mpr
    (Fallible.wp_mono (uncounted_checkDeclaredLength _ hlength) ?_ ?_)
  · rintro _ _ rfl
    refine (Fallible.wp_bind _ _ _).mpr (Fallible.wp_mono (wp_accept hpillow file) ?_ fun _ _ h => h)
    rintro record _ rfl
    exact ⟨rfl, rfl⟩
  · rintro _ _ ⟨rfl, rfl⟩
    exact ⟨⟨by decide, by decide⟩, rfl⟩

theorem wp_handleException {e : Exc} (he : e.Honest) :
    Prog.wp (tallied ext) (Routes.handleException e)
      (fun r t => ∃ result, t = [result] ∧ result ≠ "accepted" ∧ responseStatus r ≠ 202)
      (if e.isRejection then [] else ["error"]) := by
  cases e with
  | uploadRejected d status code result =>
    refine ⟨trivial, ?_⟩
    rintro r _ ⟨ha, rfl⟩
    obtain ⟨v, rfl⟩ := ha.steady rfl
    exact ⟨result, rfl, he.2, he.1⟩
  | _ => exact ⟨"error", rfl, by decide, nofun⟩

theorem wp_postJobs (hpillow : ext.VerifyForeign) {contentLength : Option String}
    (hlength : ∀ d, contentLength = some d → d.length ≤ 20 ∧ d.toList.all Char.isDigit = true)
    (file : UploadFile) :
    Prog.wp (tallied ext) (Routes.postJobs svc ext contentLength file)
      (fun r t => ∃ result, t = [result] ∧ (result = "accepted" ↔ responseStatus r = 202)) [] := by
  refine (wp_bind _ _ _ _).mpr (Effects.wp_mono (wp_createJob hpillow hlength file) ?_)
  intro r t hr
  cases r with
  | ok response =>
    obtain ⟨hstatus, rfl⟩ := hr
    exact ⟨"accepted", rfl, iff_of_true rfl hstatus⟩
  | error e =>
    obtain ⟨he, rfl⟩ := hr
    refine Effects.wp_mono (wp_handleException he) ?_
    rintro r' t' ⟨result, rfl, hresult, hstatus⟩
    exact ⟨result, rfl, iff_of_false hresult hstatus⟩

end Quiet

/-- **Every upload that ends is counted exactly once**, as accepted if and only if it is answered
with 202. -/
theorem uploads_counted_once (ext : Externals) (config : Config) (hpillow : ext.VerifyForeign)
    (contentLength : Option String)
    (hlength : ∀ d, contentLength = some d → d.length ≤ 20 ∧ d.toList.all Char.isDigit = true)
    (file : UploadFile) (s s' : Cloud) (chs : List Choice) (r : Except Exc Response) (h : History)
    (hplay : Prog.play (Cloud.perform ext)
      (Routes.postJobs (JobService.build config) ext contentLength file) s chs =
        some (.ret r, s', h)) :
    ∃ result, uploadResults h = [result] ∧ (result = "accepted" ↔ responseStatus r = 202) := by
  have hrun := Prog.play_steps Cloud.answers_of_perform hplay []
  rw [List.append_nil] at hrun
  exact hrun.returned (wp_recorder_of_monitor (h := []) (wp_postJobs hpillow hlength file))

namespace Surroundings

theorem small_verifyForeign : small.VerifyForeign := by
  intro seed data e h
  change verifyImage data = .error e at h
  unfold verifyImage at h
  split at h
  · cases h
  · obtain rfl := Except.error.inj h
    rfl

/-- `goodUpload` in two chunks. -/
def goodFile : UploadFile where
  reads := [.ok cutGif, .ok [0x02, 0x44, 0x01, 0x00, 0x3B], .ok []]
  filename := some "dot.gif"
  contentType := some "image/gif"
  foreign := nofun

theorem uploads_counted_once_good : ∃ chs r s' h, Prog.play (Cloud.perform small)
    (Routes.postJobs (JobService.build config) small (some "4096") goodFile) Cloud.empty chs =
      some (.ret r, s', h) ∧ ∃ result, uploadResults h = [result] ∧
        (result = "accepted" ↔ responseStatus r = 202) := by
  let chs : List Choice := [{}, { text := jobId }, {}, { text := clock }, { text := clock }, {}, {},
    {}, { text := messageId }, {}, {}]
  have hruns : (Prog.play (Cloud.perform small)
      (Routes.postJobs (JobService.build config) small (some "4096") goodFile) Cloud.empty chs).any
        (·.1.done) = true := by decide +kernel
  obtain ⟨⟨p, s', h⟩, hplay, hdone⟩ := (Option.any_eq_true _ _).mp hruns
  cases p with
  | call q k => cases hdone
  | ret r =>
    have hlength : ∀ d, some "4096" = some d → d.length ≤ 20 ∧ d.toList.all Char.isDigit = true := by
      rintro _ ⟨⟩
      decide
    exact ⟨chs, r, s', h, hplay, uploads_counted_once small config small_verifyForeign (some "4096")
      hlength goodFile Cloud.empty s' chs r h hplay⟩

end Surroundings

end PixelForge
