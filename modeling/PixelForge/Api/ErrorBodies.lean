import PixelForge.Api.Routes
import PixelForge.Shared.Wrappers

/-! # The body of an error response

A handler of a job endpoint is answered with a `{detail, code}` object for the exceptions that
`_register_exception_handlers` knows. `Leaks v` are the answers that lead to any other one: a permanent
error of S3 or DynamoDB, which the service passes on as it is.
-/
set_option autoImplicit false

namespace PixelForge
open Effects

/-- The exceptions with a handler. -/
def Exc.isRegistered : Exc → Bool
  | .uploadRejected _ _ _ _ => true
  | .enqueueFailed _ => true
  | .transientDependency _ _ => true
  | _ => false

/-- A request to a job endpoint. -/
inductive ApiCall
  | postJobs (contentLength : Option String) (file : UploadFile)
  | getJob (jobId : String)

namespace ApiCall

def serve (svc : JobService) (ext : Externals) : ApiCall → Py Response
  | postJobs contentLength file => Routes.postJobs svc ext contentLength file
  | getJob jobId => Routes.getJob svc ext jobId

/-- The body has been parsed: the declared length is a number that the server let through, and the
file can be read. -/
def Parsed : ApiCall → Prop
  | postJobs contentLength file =>
    (∀ d, contentLength = some d → d.length ≤ 20 ∧ d.toList.all Char.isDigit = true) ∧
      ∀ e, .error e ∉ file.reads
  | getJob _ => True

end ApiCall

/-- A response that is a success, or has a `{detail, code}` body. -/
def Uniform (r : Except Exc Response) : Prop :=
  ∃ response, r = .ok response ∧
    (200 ≤ response.status ∧ response.status < 300 ∨
      ∃ detail code, response.content = Routes.errorBody detail code)

/-- The answers after which an exception without a handler leaves the route. -/
def Leaks (ext : Externals) : Ev → Prop
  | ⟨.verifyImage _, .error e⟩ =>
    (probeError e).isImage = false ∧ (probeError e).isRegistered = false
  | ⟨.putObject _ _ _ _, .error e⟩ => isTransient e = false
  | ⟨.putItem d, .error e⟩ =>
    d.lookup "status" = some (.str JobStatus.pending.value) ∧ isTransient e = false
  | ⟨.getItem _, .error e⟩ => isTransient e = false
  | ⟨.getItem _, .ok item⟩ => ∃ e, JobTable.decodeItem ext.intOfStr item = .error e
  | _ => False

def Tight (ext : Externals) (h : History) : Prop := ∀ v ∈ h, ¬ Leaks ext v

section Bodies

variable {ext : Externals} {svc : JobService} {h : History}

theorem tight_cons {v : Ev} : Tight ext (v :: h) ↔ ¬ Leaks ext v ∧ Tight ext h := List.forall_mem_cons

theorem not_registered_of_not_own {e : Exc} (he : e.isOwn = false) : e.isRegistered = false := by
  cases e <;> first | rfl | cases he

/-- What `m` raises has a handler, unless something leaked. -/
abbrev Covered {α : Type} (ext : Externals) (m : Py α) (h : History) : Prop :=
  Fallible.wp (recorded ext) m (fun _ => Tight ext) (fun e h' => e.isRegistered = true ↔ Tight ext h') h

theorem tight_ask {q : Request} (hq : ∀ r : q.Resp, ¬ Leaks ext ⟨q, r⟩) :
    Fallible.Keeps (recorded ext) (Tight ext) (ask q) := by
  intro h hh
  refine (wp_ask _ _ _ _).mpr ⟨trivial, ?_⟩
  rintro (e | v) _ ⟨-, rfl⟩
  · exact tight_cons.mpr ⟨hq _, hh⟩
  · exact tight_cons.mpr ⟨hq _, hh⟩

theorem tight_wait {q : Request} (hq : q.isWait = true) (r : q.Resp) : ¬ Leaks ext ⟨q, r⟩ := by
  cases q <;> first | exact id | cases hq

theorem tight_retry (q : Request) (policy : RetryPolicy) (operation : String)
    (hq : ∀ r : q.Resp, ¬ Leaks ext ⟨q, r⟩) :
    Fallible.Keeps (recorded ext) (Tight ext) (callWithRetry policy operation noSwallow (ask q)) :=
  keeps_callWithRetry (tight_ask hq) (fun _ hwait => tight_ask (tight_wait hwait)) policy operation _

theorem covered_steady {α : Type} {q : Request} {f : q.Val → Py α} (hq : q.isSteady = true)
    (hleak : ∀ r : q.Resp, ¬ Leaks ext ⟨q, r⟩) (hh : Tight ext h)
    (hf : ∀ v h', Tight ext h' → Covered ext (f v) h') :
    Covered ext (Bind.bind (m := Fallible Request Request.Resp Exc) (ask q) f) h := by
  refine (Fallible.wp_bind _ _ _).mpr ((wp_ask _ _ _ _).mpr ⟨trivial, ?_⟩)
  rintro r _ ⟨ha, rfl⟩
  obtain ⟨v, rfl⟩ := ha.steady hq
  exact hf v _ (tight_cons.mpr ⟨hleak _, hh⟩)

/-- The ladder around a call whose permanent errors, and only those, leak. -/
theorem covered_retry (q : Request) (policy : RetryPolicy) (operation : String)
    (hpos : 1 ≤ policy.attempts) (hq : q.isPillow = false)
    (hleaks : ∀ e, Leaks ext ⟨q, .error e⟩ ↔ isTransient e = false) (hh : Tight ext h) :
    Fallible.wp (recorded ext) (callWithRetry policy operation noSwallow (ask q))
      (fun v h' => Tight ext h' ↔ ¬ Leaks ext ⟨q, .ok v⟩)
      (fun e h' => e.isRegistered = true ↔ Tight ext h') h := by
  have hclimb : ∀ {i h'}, Climbing q noSwallow i h h' → Tight ext h' := by
    intro i h' hc v hv
    obtain hv | ⟨hwait, -⟩ | ⟨e, rfl, -, ht⟩ := hc.mem hv
    · exact hh v hv
    · exact tight_wait hwait v.2
    · rw [hleaks, ht]
      exact Bool.true_eq_false.mp
  refine wp_recorded_ladder policy operation hpos (fun _ hc _ => ?_) (fun _ _ hsw => ?_)
    (fun _ hc ha _ ht => ?_) fun hc => iff_of_true rfl (hclimb hc)
  · exact tight_cons.trans (and_iff_left (hclimb hc))
  · rw [swallowed_noSwallow] at hsw
    cases hsw
  · rw [not_registered_of_not_own (ha.not_own hq)]
    exact iff_of_false Bool.false_ne_true fun htight => (tight_cons.mp htight).1 ((hleaks _).mpr ht)

/-! ## The service -/

theorem covered_validateUpload (contentType : Option String) (sizeBytes : Nat) (hh : Tight ext h) :
    Covered ext (svc.validateUpload ext contentType sizeBytes) h := by
  unfold JobService.validateUpload
  split
  · exact iff_of_true rfl hh
  · dsimp only
    split
    · exact hh
    · exact iff_of_true rfl hh

/-- The gate turns an image error into a rejection, and passes on what else Pillow raises. -/
theorem covered_probeUpload (data : Bytes) (hh : Tight ext h) :
    Covered ext (JobService.probeUpload data) h := by
  have hprobe : Fallible.wp (recorded ext) (probeImage data) (fun _ => Tight ext)
      (fun e h' => e.isImage = true ∧ Tight ext h' ∨
        e.isImage = false ∧ (e.isRegistered = true ↔ Tight ext h')) h := by
    unfold probeImage
    split
    · exact .inl ⟨rfl, hh⟩
    · refine (Fallible.wp_tryElse _ _ _ _).mpr ((wp_ask _ _ _ _).mpr ⟨trivial, ?_⟩)
      rintro (e | header) _ ⟨-, rfl⟩
      · have hleak : Leaks ext ⟨.verifyImage data, .error e⟩ ↔
            (probeError e).isImage = false ∧ (probeError e).isRegistered = false := Iff.rfl
        refine (Fallible.wp_raise _).mpr ?_
        rw [tight_cons, hleak]
        cases himage : (probeError e).isImage with
        | true => exact .inl ⟨rfl, fun h => Bool.true_eq_false.mp h.1, hh⟩
        | false =>
          cases hregistered : (probeError e).isRegistered with
          | true => exact .inr ⟨rfl, iff_of_true rfl ⟨fun h => Bool.true_eq_false.mp h.2, hh⟩⟩
          | false => exact .inr ⟨rfl, iff_of_false Bool.false_ne_true fun h => h.1 ⟨rfl, rfl⟩⟩
      · have hok : Tight ext (⟨.verifyImage data, .ok header⟩ :: h) := tight_cons.mpr ⟨id, hh⟩
        dsimp only
        split
        · exact .inl ⟨rfl, hok⟩
        · split
          · exact .inl ⟨rfl, hok⟩
          · exact hok
  refine (Fallible.wp_tryExcept _ _).mpr (Fallible.wp_mono hprobe (fun _ _ h => h) ?_)
  rintro e h' (⟨himage, htight⟩ | ⟨himage, hiff⟩)
  · cases e <;> first | exact iff_of_true rfl htight | cases himage
  · cases e <;> first | exact hiff | cases himage

theorem tight_sendJob (body : String) (attributes : List (String × String)) :
    Fallible.Keeps (recorded ext) (Tight ext) (svc.clients.queue.sendJob body attributes) :=
  .tryExcept (tight_retry (.sendMessage ..) _ _ fun _ => id) fun e =>
    .bind (tight_ask fun _ => id) fun _ => .raise e

/-- Whatever becomes of the compensation, nothing leaks. -/
theorem tight_markUnqueueable (record : JobRecord) (e : Exc) (hh : Tight ext h) :
    Fallible.wp (recorded ext) (svc.markUnqueueable record e) (fun _ => Tight ext)
      (fun _ _ => False) h := by
  have hkeeps : Fallible.Keeps (recorded ext) (Tight ext) (do
      let updatedAt : String ← ask .utcNow
      let completedAt : String ← ask .utcNow
      svc.clients.table.putJob (JobService.unqueueable record e updatedAt completedAt) : Py Unit) := by
    refine .bind (tight_ask fun _ => id) fun updatedAt => .bind (tight_ask fun _ => id)
      fun completedAt => tight_retry (.putItem _) _ _ fun r => ?_
    cases r with
    | ok v => exact id
    | error e' =>
      rintro ⟨hpending, -⟩
      have hfailed : (JobTable.recordItem (JobService.unqueueable record e updatedAt
          completedAt)).lookup "status" = some (.str JobStatus.failed.value) :=
        JobTable.recordItem_status _
      exact absurd (PyVal.str.inj (Option.some.inj (hfailed.symm.trans hpending))) (by decide)
  exact (Fallible.wp_tryExcept _ _).mpr (Fallible.wp_mono (hkeeps h hh) (fun _ _ h => h)
    fun _ _ h => h)

theorem covered_enqueue (u : Upload) (record : JobRecord) (hh : Tight ext h) :
    Covered ext (svc.enqueue ext u record) h := by
  refine covered_steady rfl (fun _ => id) hh fun context h₁ hh₁ => ?_
  refine (Fallible.wp_tryElse _ _ _ _).mpr (Fallible.wp_mono (tight_sendJob _ _ h₁ hh₁) ?_ ?_)
  · intro mid h₂ hh₂
    exact covered_steady rfl (fun _ => id) hh₂ fun _ _ hh₃ =>
      covered_steady rfl (fun _ => id) hh₃ fun _ _ hh₄ => hh₄
  · intro e h₂ hh₂
    exact (Fallible.wp_bind _ _ _).mpr (Fallible.wp_mono (tight_markUnqueueable record e hh₂)
      (fun _ _ h => iff_of_true rfl h) fun _ _ h => h.elim)

theorem covered_bind {α β : Type} {m : Py α} {f : α → Py β} (hm : Covered ext m h)
    (hf : ∀ a h', Tight ext h' → Covered ext (f a) h') :
    Covered ext (Bind.bind (m := Fallible Request Request.Resp Exc) m f) h :=
  (Fallible.wp_bind _ _ _).mpr (Fallible.wp_mono hm hf fun _ _ h => h)

/-- A write whose answer cannot leak. -/
theorem covered_write (q : Request) (policy : RetryPolicy) (operation : String)
    (hpos : 1 ≤ policy.attempts) (hq : q.isPillow = false) (hok : ∀ v, ¬ Leaks ext ⟨q, .ok v⟩)
    (hleaks : ∀ e, Leaks ext ⟨q, .error e⟩ ↔ isTransient e = false) (hh : Tight ext h) :
    Covered ext (callWithRetry policy operation noSwallow (ask q)) h :=
  Fallible.wp_mono (covered_retry q policy operation hpos hq hleaks hh)
    (fun v _ h => h.mpr (hok v)) fun _ _ h => h

theorem covered_createJob (config : Config) (u : Upload) (hh : Tight ext h) :
    Covered ext ((JobService.build config).createJob ext u) h := by
  have hpos : 1 ≤ defaultPolicy.attempts := by decide
  refine covered_bind (covered_validateUpload _ _ hh) fun _ _ hh => ?_
  refine covered_bind (covered_probeUpload _ hh) fun probe _ hh => ?_
  refine covered_steady rfl (fun _ => id) hh fun jobId _ hh => ?_
  refine covered_steady rfl (fun _ => id) hh fun traceId _ hh => ?_
  refine covered_steady rfl (fun _ => id) hh fun createdAt _ hh => ?_
  refine covered_steady rfl (fun _ => id) hh fun updatedAt _ hh => ?_
  refine covered_bind (covered_write (.putObject ..) _ _ hpos rfl (fun _ => id)
    (fun _ => Iff.rfl) hh) fun _ _ hh => ?_
  refine covered_bind (covered_write (.putItem _) _ _ hpos rfl (fun _ => id)
    (fun e => ⟨fun h => h.2, fun h => ⟨rfl, h⟩⟩) hh) fun _ _ hh => ?_
  exact covered_enqueue _ _ hh

theorem covered_getJob (config : Config) (jobId : String) (hh : Tight ext h) :
    Covered ext ((JobService.build config).getJob ext jobId) h := by
  unfold JobService.getJob
  split
  · have hpos : 1 ≤ defaultPolicy.attempts := by decide
    refine (Fallible.wp_bind _ _ _).mpr (Fallible.wp_mono (covered_retry (.getItem jobId) _ _
      hpos rfl (fun _ => Iff.rfl) hh) ?_ fun _ _ h => h)
    rintro item h' hitem
    split
    · rename_i record hdecode
      refine hitem.mpr ?_
      rintro ⟨e, he⟩
      cases hdecode.symm.trans he
    · rename_i e hdecode
      rw [JobTable.decodeItem_error hdecode]
      exact iff_of_false Bool.false_ne_true fun htight => hitem.mp htight ⟨e, hdecode⟩
  · exact hh

/-! ## The routes -/

/-- No length that the server let through is too long for `int`. -/
theorem covered_declaredLength (maxBytes : Int) {contentLength : Option String}
    (hparsed : ∀ d, contentLength = some d → d.length ≤ 20 ∧ d.toList.all Char.isDigit = true)
    (hh : Tight ext h) : Covered ext (Routes.checkDeclaredLength maxBytes contentLength) h := by
  cases contentLength with
  | none => exact hh
  | some declared =>
    obtain ⟨hlength, hdigits⟩ := hparsed declared rfl
    unfold Routes.checkDeclaredLength
    dsimp only
    rw [Routes.intOfDigits_of_digits hdigits (by omega)]
    dsimp only
    split
    · split
      · exact iff_of_true rfl hh
      · exact hh
    · exact hh

theorem covered_readLoop (maxBytes : Int) {reads : List (Except Exc Bytes)}
    (hreads : ∀ e, .error e ∉ reads) (hh : Tight ext h) (chunks : List Bytes) (total : Nat) :
    Covered ext (Routes.readLoop maxBytes chunks total reads) h := by
  induction reads generalizing chunks total with
  | nil => exact hh
  | cons read reads ih =>
    cases read with
    | error e => exact absurd List.mem_cons_self (hreads e)
    | ok chunk =>
      unfold Routes.readLoop
      split
      · exact hh
      · split
        · exact iff_of_true rfl hh
        · exact ih (fun e he => hreads e (List.mem_cons_of_mem _ he)) _ _

/-- The counter of the errors does not change what is raised. -/
theorem covered_accept (config : Config) {file : UploadFile} (hreads : ∀ e, .error e ∉ file.reads)
    (hh : Tight ext h) : Covered ext (Routes.accept (.build config) ext file) h := by
  have htry : Covered ext (do
      let data ← Routes.readLimited file config.maxUploadBytes
      (JobService.build config).createJob ext ⟨data, file.filename, file.contentType⟩) h :=
    covered_bind (covered_readLoop _ hreads hh _ _) fun _ _ hh => covered_createJob config _ hh
  refine (Fallible.wp_tryExcept _ _).mpr (Fallible.wp_mono htry (fun _ _ h => h) ?_)
  intro e h' he
  have hcount : Covered ext (do ask (.metric (.uploads "error")); Fallible.raise e : Py JobRecord) h' := by
    refine (Fallible.wp_bind _ _ _).mpr ((wp_ask _ _ _ _).mpr ⟨trivial, ?_⟩)
    rintro r _ ⟨ha, rfl⟩
    obtain ⟨v, rfl⟩ := ha.steady rfl
    exact he.trans (tight_cons.trans (and_iff_right id)).symm
  cases e <;> first | exact hcount | exact he

theorem accepted_postJobs (config : Config) {contentLength : Option String} {file : UploadFile}
    (hparsed : (ApiCall.postJobs contentLength file).Parsed) (hh : Tight ext h) :
    Fallible.wp (recorded ext) (Routes.createJob (.build config) ext contentLength file)
      (fun r h' => r.status = 202 ∧ Tight ext h')
      (fun e h' => e.isRegistered = true ↔ Tight ext h') h := by
  refine (Fallible.wp_bind _ _ _).mpr
    (Fallible.wp_mono (covered_declaredLength _ hparsed.1 hh) ?_ fun _ _ h => h)
  intro _ h₁ hh₁
  refine (Fallible.wp_bind _ _ _).mpr
    (Fallible.wp_mono (covered_accept config hparsed.2 hh₁) ?_ fun _ _ h => h)
  exact fun record h₂ hh₂ => ⟨rfl, hh₂⟩

theorem uniform_errorBody (status : Nat) (detail code : String) :
    Uniform (.ok ⟨status, Routes.errorBody detail code⟩) := ⟨_, rfl, .inr ⟨detail, code, rfl⟩⟩

theorem not_uniform_error (e : Exc) : ¬ Uniform (.error e) := by
  rintro ⟨response, hr, -⟩
  cases hr

theorem uniform_handleException {e : Exc} (he : e.isRegistered = true ↔ Tight ext h) :
    Prog.wp (recorded ext) (Routes.handleException e) (fun r h' => Uniform r ↔ Tight ext h') h := by
  have hraise : e.isRegistered = false → (Uniform (.error e) ↔ Tight ext h) := fun hf =>
    iff_of_false (not_uniform_error e) fun htight => by
      rw [he.mpr htight] at hf
      cases hf
  cases e with
  | uploadRejected detail status code metricResult =>
    refine ⟨trivial, ?_⟩
    rintro r _ ⟨ha, rfl⟩
    obtain ⟨v, rfl⟩ := ha.steady rfl
    exact iff_of_true (uniform_errorBody _ _ _) (tight_cons.mpr ⟨id, he.mp rfl⟩)
  | enqueueFailed _ => exact iff_of_true (uniform_errorBody _ _ _) (he.mp rfl)
  | transientDependency _ _ => exact iff_of_true (uniform_errorBody _ _ _) (he.mp rfl)
  | _ => exact hraise rfl

theorem uniform_tryExcept {m : Py Response}
    (hm : Fallible.wp (recorded ext) m (fun r h' => Uniform (.ok r) ∧ Tight ext h')
      (fun e h' => e.isRegistered = true ↔ Tight ext h') h) :
    Prog.wp (recorded ext) (Fallible.tryExcept m Routes.handleException)
      (fun r h' => Uniform r ↔ Tight ext h') h := by
  refine (Effects.wp_bind _ _ _ _).mpr (Effects.wp_mono hm ?_)
  rintro (e | r) h' hr
  · exact uniform_handleException hr
  · exact iff_of_true hr.1 hr.2

theorem uniform_serve (config : Config) (call : ApiCall) (hparsed : call.Parsed)
    (hh : Tight ext h) :
    Prog.wp (recorded ext) (call.serve (.build config) ext) (fun r h' => Uniform r ↔ Tight ext h') h := by
  cases call with
  | postJobs contentLength file =>
    refine uniform_tryExcept (Fallible.wp_mono (accepted_postJobs config hparsed hh) ?_ fun _ _ h => h)
    rintro response h' ⟨hstatus, htight⟩
    exact ⟨⟨response, rfl, .inl (by omega)⟩, htight⟩
  | getJob jobId =>
    refine uniform_tryExcept ((Fallible.wp_bind _ _ _).mpr
      (Fallible.wp_mono (covered_getJob config jobId hh) ?_ fun _ _ h => h))
    rintro (_ | record) h' htight
    · exact ⟨uniform_errorBody _ _ _, htight⟩
    · have hok : (200 : Nat) < 300 := by omega
      exact ⟨⟨_, rfl, .inl ⟨le_refl 200, hok⟩⟩, htight⟩

/-- **A response to a job endpoint is a success or has a `{detail, code}` body** in exactly the runs in
which nothing leaked. -/
theorem errors_are_uniform {config : Config} {call : ApiCall} {r : Except Exc Response}
    (hparsed : call.Parsed)
    (hrun : Steps (recorded ext) (call.serve (.build config) ext) [] (.ret r) h) :
    Uniform r ↔ Tight ext h :=
  hrun.wp (uniform_serve config call hparsed fun _ hv => absurd hv List.not_mem_nil)

end Bodies

namespace Surroundings

def dotFile : UploadFile where
  reads := [.ok dotGif]
  filename := some "dot.gif"
  contentType := some "image/gif"
  foreign := fun _ he => absurd (List.mem_singleton.mp he) nofun

/-- An upload that says it is too large. -/
def oversized : ApiCall := .postJobs (some "99999999999") dotFile

theorem errors_are_uniform_oversized : ∃ r h,
    Steps (recorded small) (oversized.serve (.build config) small) [] (.ret r) h ∧
      (Uniform r ↔ Tight small h) := by
  have hplay : Prog.play (Cloud.perform small) (oversized.serve (.build config) small) Cloud.empty
      [{}] = some (.ret (.ok ⟨413, Routes.errorBody "file exceeds the 10485760 byte limit"
        "payload_too_large"⟩), Cloud.empty, [⟨.metric (.uploads "rejected_too_large"), .ok ()⟩]) := by
    rfl
  have hparsed : oversized.Parsed := by
    refine ⟨fun d hd => ?_, fun e he => ?_⟩
    · obtain rfl := Option.some.inj hd
      exact ⟨by decide, by decide⟩
    · exact absurd (List.mem_singleton.mp he) nofun
  have hrun := Prog.play_steps Cloud.answers_of_perform hplay []
  exact ⟨_, _, hrun, errors_are_uniform hparsed hrun⟩

/-- A read of the table that is denied. -/
theorem denied_read_has_no_body : ∃ h,
    Steps (recorded small) (ApiCall.serve (.build config) small (.getJob jobId)) []
      (.ret (.error accessDenied)) h ∧ ¬ Uniform (.error accessDenied) := by
  have hplay : Prog.play (Cloud.perform small) (ApiCall.serve (.build config) small (.getJob jobId))
      Cloud.empty [{ fault := .failed accessDenied }] =
        some (.ret (.error accessDenied), Cloud.empty, [⟨.getItem jobId, .error accessDenied⟩]) := by
    rfl
  have hrun := Prog.play_steps Cloud.answers_of_perform hplay []
  exact ⟨_, hrun, not_uniform_error _⟩

end Surroundings

end PixelForge
