import PixelForge.Api.SizeChecks

/-! # The application (`api/main.py`, `api/routes`)

The endpoints that `create_app` includes, and what each of them may answer with: the handlers of the
jobs are the programs of `Routes`, the others answer from constants. The fault injection of the job
endpoints (`api/chaos.py`) and the handler of a request that FastAPI cannot validate add a 500 and a
422.
-/
set_option autoImplicit false

namespace PixelForge
open Effects

inductive Endpoint
  | createJob
  | getJob
  | healthz
  | readyz
  | metrics
  | setChaos
deriving DecidableEq, Repr

namespace Endpoint

/-- The template, with the prefix of the router. -/
def path : Endpoint → String
  | .createJob => "/api/v1/jobs"
  | .getJob => "/api/v1/jobs/\x7bjob_id\x7d"
  | .healthz => "/healthz"
  | .readyz => "/readyz"
  | .metrics => "/metrics"
  | .setChaos => "/admin/chaos"

/-- The routers of `create_app`. -/
def included (config : Config) : List Endpoint :=
  [.createJob, .getJob, .healthz, .readyz, .metrics] ++
    if config.enableChaosEndpoint then [.setChaos] else []

/-- `readyz`, where `ready` is what `probe.run` found. -/
def readyzStatus (failReadiness ready : Bool) : Nat :=
  if failReadiness then 503 else if ready then 200 else 503

/-- The status codes an endpoint may answer with. -/
inductive Responds (ext : Externals) (config : Config) : Endpoint → Nat → Prop
  | createJob {contentLength : Option String} {file : UploadFile} {response : Response} {h : History}
      (hrun : Steps (recorded ext) (Routes.postJobs (.build config) ext contentLength file) []
        (.ret (.ok response)) h) : Responds ext config .createJob response.status
  | getJob {jobId : String} {response : Response} {h : History}
      (hrun : Steps (recorded ext) (Routes.getJob (.build config) ext jobId) []
        (.ret (.ok response)) h) : Responds ext config .getJob response.status
  | healthz : Responds ext config .healthz 200
  | readyz (failReadiness ready : Bool) :
      Responds ext config .readyz (readyzStatus failReadiness ready)
  | metrics : Responds ext config .metrics 200
  | setChaos : Responds ext config .setChaos 200
  | injected {e : Endpoint} (he : e = .createJob ∨ e = .getJob) : Responds ext config e 500
  | invalid (e : Endpoint) : Responds ext config e 422

/-- Every status code of the application. -/
def statuses : List Nat := [200, 202, 400, 404, 413, 415, 422, 500, 503]

end Endpoint

section Statuses

variable {ext : Externals} {svc : JobService}

abbrev Exc.Listed (e : Exc) : Prop := e.answered ∈ Endpoint.statuses

/-- Whatever `m` raises is answered with a status of the application. -/
abbrev Listed {α : Type} (ext : Externals) (m : Py α) : Prop :=
  Fallible.Raises (recorded ext) Exc.Listed m

theorem Exc.Usual.listed {e : Exc} (h : e.Usual) : e.Listed :=
  (by decide : ∀ status ∈ [400, 415, 500, 503], status ∈ Endpoint.statuses) _ h

theorem Usually.listed {α : Type} {m : Py α} (hm : Usually ext m) : Listed ext m :=
  hm.mono fun _ he => he.listed

theorem listed_tooLarge (maxBytes : Int) : (Routes.tooLarge maxBytes).Listed :=
  (by decide : 413 ∈ Endpoint.statuses)

theorem listed_validateUpload (contentType : Option String) (sizeBytes : Nat) :
    Listed ext (svc.validateUpload ext contentType sizeBytes) := by
  by_cases hsize : (sizeBytes : Int) ≤ svc.config.maxUploadBytes
  · exact (usually_validateUpload contentType hsize).listed
  · unfold JobService.validateUpload
    rw [if_pos (Int.not_le.mp hsize)]
    exact .raise (by decide : 413 ∈ Endpoint.statuses)

theorem listed_checkDeclaredLength (maxBytes : Int) (contentLength : Option String) :
    Listed ext (Routes.checkDeclaredLength maxBytes contentLength) := by
  cases contentLength with
  | none => exact .pure ()
  | some declared =>
    simp only [Routes.checkDeclaredLength]
    split
    · unfold Routes.intOfDigits
      split
      · rename_i e he
        split at he
        · cases he
        · cases he
          exact .raise (by decide : 500 ∈ Endpoint.statuses)
      · split
        · exact .raise (listed_tooLarge maxBytes)
        · exact .pure ()
    · exact .pure ()

/-- Induction on the reads; those that fail raise none of the repository's exceptions. -/
theorem listed_readLoop (maxBytes : Int) {reads : List (Except Exc Bytes)}
    (hforeign : ∀ e, .error e ∈ reads → e.isOwn = false) (chunks : List Bytes) (total : Nat) :
    Listed ext (Routes.readLoop maxBytes chunks total reads) := by
  induction reads generalizing chunks total with
  | nil => exact .pure _
  | cons read reads ih =>
    cases read with
    | error e => exact .raise (Exc.usual_of_call (.inl (hforeign e List.mem_cons_self))).listed
    | ok chunk =>
      rw [Routes.readLoop]
      split
      · exact .pure _
      · split
        · exact .raise (listed_tooLarge maxBytes)
        · exact ih (fun e he => hforeign e (List.mem_cons_of_mem _ he)) _ _

theorem listed_accept (hpillow : ext.VerifyForeign) (file : UploadFile) :
    Listed ext (Routes.accept svc ext file) := by
  have hread : Listed ext (Routes.readLimited file svc.config.maxUploadBytes) :=
    listed_readLoop _ file.foreign [] 0
  have hcreate : ∀ u, Listed ext (svc.createJob ext u) := fun u =>
    (listed_validateUpload _ _).bind fun _ => (usually_admitted hpillow u).listed
  refine (hread.bind fun data => hcreate _).tryExcept fun e he => ?_
  split
  · exact .raise he
  · exact (usually_ask rfl).listed.bind fun _ => .raise he

theorem usually_getJob (jobId : String) : Usually ext (svc.getJob ext jobId) := by
  unfold JobService.getJob
  split
  · refine (usually_retry (.getItem jobId) _ _).bind fun item => ?_
    split
    · exact .pure _
    · rename_i e hdecode
      rw [JobTable.decodeItem_error hdecode]
      exact .raise (by decide : 500 ∈ [400, 415, 500, 503])
  · exact .pure none

/-- The handlers answer what they take with its status; the server answers the rest with 500. -/
theorem wp_handled {m : Py Response} (hm : Fallible.wp (recorded ext) m
      (fun response _ => response.status ∈ Endpoint.statuses) (fun e _ => e.Listed) []) :
    Prog.wp (recorded ext) (Fallible.tryExcept m Routes.handleException)
      (fun r _ => responseStatus r ∈ Endpoint.statuses) [] := by
  refine (wp_bind _ _ _ _).mpr (Effects.wp_mono hm ?_)
  intro r h hr
  cases r with
  | ok response => exact hr
  | error e =>
    refine Effects.wp_mono (wp_handleException_status e h) fun r _ hstatus => ?_
    rw [hstatus]
    exact hr

theorem wp_postJobs_listed (hpillow : ext.VerifyForeign) (contentLength : Option String)
    (file : UploadFile) :
    Prog.wp (recorded ext) (Routes.postJobs svc ext contentLength file)
      (fun r _ => responseStatus r ∈ Endpoint.statuses) [] := by
  refine wp_handled ((Fallible.wp_bind _ _ _).mpr
    (Fallible.wp_mono (listed_checkDeclaredLength _ _ []) (fun _ h _ => ?_) fun _ _ h => h))
  refine (Fallible.wp_bind _ _ _).mpr
    (Fallible.wp_mono (listed_accept hpillow file h) (fun _ _ _ => ?_) fun _ _ h => h)
  exact (by decide : 202 ∈ Endpoint.statuses)

theorem wp_getJob_listed (jobId : String) :
    Prog.wp (recorded ext) (Routes.getJob svc ext jobId)
      (fun r _ => responseStatus r ∈ Endpoint.statuses) [] := by
  refine wp_handled ((Fallible.wp_bind _ _ _).mpr
    (Fallible.wp_mono ((usually_getJob jobId).listed []) (fun record _ _ => ?_) fun _ _ h => h))
  cases record with
  | none => exact (by decide : 404 ∈ Endpoint.statuses)
  | some r => exact (by decide : 200 ∈ Endpoint.statuses)

/-- The application answers with finitely many statuses. -/
theorem Endpoint.Responds.listed {config : Config} {e : Endpoint} {status : Nat}
    (h : e.Responds ext config status) (hpillow : ext.VerifyForeign) :
    status ∈ Endpoint.statuses := by
  cases h with
  | createJob hrun => exact hrun.returned (wp_postJobs_listed hpillow _ _)
  | getJob hrun => exact hrun.returned (wp_getJob_listed _)
  | healthz => decide
  | readyz failReadiness ready => cases failReadiness <;> cases ready <;> decide
  | metrics => decide
  | setChaos => decide
  | injected => decide
  | invalid => decide

end Statuses

end PixelForge
