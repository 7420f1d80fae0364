import PixelForge.Effects.Mutex
import PixelForge.Shared.Config
import PixelForge.Shared.Readiness

/-! # Fault injection (`api/chaos.py`, `api/routes/admin.py`, `api/routes/health.py`)

The controller is an object behind a lock (`ChaosController.methods`); requests to the admin route, to
`/readyz` and to the job endpoints call its methods at the same time.

`chaos_is_serial`: they are answered as if the settings had been made one after another, in an order
that real time does not contradict.
-/
set_option autoImplicit false

namespace PixelForge
open Effects

/-! ## The controller -/

/-- The body of `POST /admin/chaos`, validated. -/
structure ChaosRequest where
  failReadiness : Option Bool
  latencyMs : Option Int
  errorRate : Option Rat
  latency_bounds : ∀ ms ∈ latencyMs, 0 ≤ ms ∧ ms ≤ 60000
  rate_bounds : ∀ r ∈ errorRate, 0 ≤ r ∧ r ≤ 1

structure ChaosState where
  failReadiness : Bool := false
  latencyMs : Int := 0
  errorRate : Rat := 0
deriving DecidableEq, Repr

/-- `model_copy(update=request.model_dump(exclude_none=True))`. -/
def ChaosState.updated (state : ChaosState) (request : ChaosRequest) : ChaosState where
  failReadiness := request.failReadiness.getD state.failReadiness
  latencyMs := request.latencyMs.getD state.latencyMs
  errorRate := request.errorRate.getD state.errorRate

namespace ChaosController

inductive Name
  | snapshot
  | apply (request : ChaosRequest)
  | reset
  | failReadiness
  | latencySeconds
  | errorRate

abbrev Ans : Name → Type
  | .snapshot => ChaosState
  | .apply _ => ChaosState
  | .reset => ChaosState
  | .failReadiness => Bool
  | .latencySeconds => Rat
  | .errorRate => Rat

/-- What the methods do while they hold the lock; `errorRate` is the part of `should_fail_request`. -/
def body : (m : Name) → Prog (Access ChaosState) Access.Resp (Ans m)
  | .snapshot => .call .read .ret
  | .apply request => .call .read fun state => .call (.write (state.updated request)) fun _ => .call .read .ret
  | .reset => .call (.write {}) fun _ => .call .read .ret
  | .failReadiness => .call .read fun state => .ret state.failReadiness
  | .latencySeconds => .call .read fun state => .ret (state.latencyMs / 1000)
  | .errorRate => .call .read fun state => .ret state.errorRate

def methods : Methods ChaosState where
  Name := Name
  Ans := Ans
  body := body

end ChaosController

/-! ## The requests -/

/-- What the requests ask beside the controller: `random.random`, `asyncio.sleep` and `probe.run`. -/
inductive ChaosOwn
  | random
  | sleep (seconds : Rat)
  | probe

abbrev ChaosOwn.Back : ChaosOwn → Type
  | .random => Rat
  | .sleep _ => Unit
  | .probe => Report

abbrev Chaotic (α : Type) : Type :=
  Prog (Op ChaosController.methods ChaosOwn) (Op.Resp ChaosOwn.Back) α

def call (m : ChaosController.Name) : Chaotic (ChaosController.Ans m) :=
  .call (.method m : Op ChaosController.methods ChaosOwn) .ret

def askOwn (q : ChaosOwn) : Chaotic q.Back := .call (.own q) .ret

def shouldFailRequest : Chaotic Bool :=
  (call .errorRate).bind fun rate =>
    if rate ≤ 0 then .ret false
    else if 1 ≤ rate then .ret true
    else (askOwn .random).bind fun x => .ret (decide (x < rate))

structure ReadinessResponse where
  status : String
  checks : List (String × String)
deriving DecidableEq, Repr

inductive ChaosReply
  | settings (state : ChaosState)
  | readiness (status : Nat) (body : ReadinessResponse)
  | injected
  | admitted
deriving DecidableEq, Repr

/-- The dependency of the job endpoints: `injected` stands for `ChaosInjectedError`. -/
def applyChaos : Chaotic ChaosReply :=
  (call .latencySeconds).bind fun latency =>
    (if 0 < latency then askOwn (.sleep latency) else .ret ()).bind fun _ =>
      shouldFailRequest.bind fun fails => .ret (if fails then .injected else .admitted)

def forcedFailure : ChaosReply :=
  .readiness 503 ⟨"not_ready", [("chaos", "readiness failure forced")]⟩

def readinessOf (report : Report) : ChaosReply :=
  .readiness (if report.1 then 200 else 503) ⟨if report.1 then "ready" else "not_ready", report.2⟩

def readyz : Chaotic ChaosReply :=
  (call .failReadiness).bind fun forced =>
    if forced then .ret forcedFailure
    else (askOwn .probe).bind fun report => .ret (readinessOf report)

def setChaos (request : ChaosRequest) : Chaotic ChaosReply :=
  (call (.apply request)).bind fun state => .ret (.settings state)

inductive ChaosTask
  | setChaos (request : ChaosRequest)
  | readyz
  | job

def ChaosTask.prog : ChaosTask → Chaotic ChaosReply
  | .setChaos request => PixelForge.setChaos request
  | .readyz => PixelForge.readyz
  | .job => applyChaos

/-- Whether there is a route for the request. -/
def ChaosTask.routed (config : Config) : ChaosTask → Bool
  | .setChaos _ => config.enableChaosEndpoint
  | _ => true

/-- The draw and the report of the choice answer a request. -/
structure ChaosChoice where
  draw : Rat := 0
  report : Report := (true, [])

def answerOwn : (q : ChaosOwn) → ChaosChoice → Option q.Back
  | .random, ch => if 0 ≤ ch.draw ∧ ch.draw < 1 then some ch.draw else none
  | .sleep _, _ => some ()
  | .probe, ch => some ch.report

/-- One replica of the API, with the requests `tasks`. -/
def chaosServer (config : Config) (tasks : Nat → ChaosTask) :
    Clients ChaosController.methods ChaosOwn ChaosOwn.Back Nat ChaosChoice ChaosReply where
  prog n := (tasks n).prog
  runs n := (tasks n).routed config
  answer := answerOwn

/-! ## The settings -/

/-- What the latest request says that says anything. -/
def latest {β : Type} (field : ChaosRequest → Option β) (default : β) (requests : List ChaosRequest) : β :=
  (requests.findSome? field).getD default

/-- The settings after the requests, latest first. -/
def settings (requests : List ChaosRequest) : ChaosState where
  failReadiness := latest (·.failReadiness) false requests
  latencyMs := latest (·.latencyMs) 0 requests
  errorRate := latest (·.errorRate) 0 requests

theorem latest_cons {β : Type} (field : ChaosRequest → Option β) (default : β) (r : ChaosRequest)
    (requests : List ChaosRequest) :
    latest field default (r :: requests) = (field r).getD (latest field default requests) := by
  unfold latest
  rw [List.findSome?_cons]
  cases field r <;> rfl

theorem settings_cons (r : ChaosRequest) (requests : List ChaosRequest) :
    settings (r :: requests) = (settings requests).updated r := by
  simp only [settings, latest_cons, ChaosState.updated]

theorem latest_bounds {β : Type} {field : ChaosRequest → Option β} {default : β} {P : β → Prop}
    (hdefault : P default) (hfield : ∀ r, ∀ b ∈ field r, P b) (requests : List ChaosRequest) :
    P (latest field default requests) := by
  induction requests with
  | nil => exact hdefault
  | cons r requests ih =>
    rw [latest_cons]
    cases hr : field r with
    | none => exact ih
    | some b => exact hfield r b hr

/-- The settings are within the bounds of the requests. -/
theorem settings_bounds (requests : List ChaosRequest) :
    (0 ≤ (settings requests).latencyMs ∧ (settings requests).latencyMs ≤ 60000) ∧
      0 ≤ (settings requests).errorRate ∧ (settings requests).errorRate ≤ 1 :=
  ⟨latest_bounds (P := fun ms : Int => 0 ≤ ms ∧ ms ≤ 60000) (by decide) (fun r => r.latency_bounds) requests,
    latest_bounds (P := fun rate : Rat => 0 ≤ rate ∧ rate ≤ 1) ⟨le_refl 0, zero_le_one⟩ (fun r => r.rate_bounds)
      requests⟩

/-! ## One request -/

abbrev ChaosEvent : Type := Event (Op ChaosController.methods ChaosOwn) (Op.Resp ChaosOwn.Back)

abbrev told (m : ChaosController.Name) (a : ChaosController.Ans m) : ChaosEvent := ⟨.method m, a⟩
abbrev showed (q : ChaosOwn) (r : q.Back) : ChaosEvent := ⟨.own q, r⟩

/-- What a request asks of its own, and when. -/
def ownMay (task : ChaosTask) (h : List ChaosEvent) : ChaosOwn → Prop
  | .sleep seconds => told .latencySeconds seconds ∈ h ∧ 0 < seconds
  | .random => ∃ rate, told .errorRate rate ∈ h ∧ 0 < rate ∧ rate < 1
  | .probe => match task with
    | .readyz => True
    | _ => False

def chaosMay (task : ChaosTask) (h : List ChaosEvent) : Op ChaosController.methods ChaosOwn → Prop
  | .method (.apply request) => task = .setChaos request ∧ h = []
  | .method .reset => False
  | .method _ => True
  | .own q => ownMay task h q

/-- The latency has been read, and slept for where it is positive. -/
def Paused (h : List ChaosEvent) : Prop :=
  ∃ latency : Rat, told .latencySeconds latency ∈ h ∧ (0 < latency → showed (.sleep latency) () ∈ h)

/-- What has happened when a request is answered; a job request reads the error rate after it has
paused, and draws where the rate leaves it open. -/
inductive ChaosDone (h : List ChaosEvent) : ChaosTask → ChaosReply → Prop
  | settings {request : ChaosRequest} {state : ChaosState} (happlied : told (.apply request) state ∈ h) :
      ChaosDone h (.setChaos request) (.settings state)
  | forced (hforced : told .failReadiness true ∈ h) : ChaosDone h .readyz forcedFailure
  | probed {report : Report} (hforced : told .failReadiness false ∈ h)
      (hprobe : showed .probe report ∈ h) : ChaosDone h .readyz (readinessOf report)
  | injected {rate : Rat} {after before : List ChaosEvent} (hh : h = after ++ told .errorRate rate :: before)
      (hpaused : Paused before) (hpos : 0 < rate)
      (hdraw : rate < 1 → ∃ x : Rat, showed .random x ∈ h ∧ x < rate) : ChaosDone h .job .injected
  | admitted {rate : Rat} {after before : List ChaosEvent} (hh : h = after ++ told .errorRate rate :: before)
      (hpaused : Paused before) (hlt : rate < 1)
      (hdraw : 0 < rate → ∃ x : Rat, showed .random x ∈ h ∧ rate ≤ x) : ChaosDone h .job .admitted

def ownAnswers : (q : Op ChaosController.methods ChaosOwn) → q.Resp ChaosOwn.Back → Prop
  | .own .random, x => 0 ≤ x ∧ x < 1
  | _, _ => True

section Request

variable {h : List ChaosEvent}

theorem wp_shouldFailRequest (hpaused : Paused h) :
    Prog.wp (recorder (chaosMay .job) ownAnswers) shouldFailRequest
      (fun fails h => ChaosDone h .job (if fails then .injected else .admitted)) h := by
  refine ⟨trivial, ?_⟩
  rintro (rate : Rat) _ ⟨-, rfl⟩
  show Prog.wp _ (if rate ≤ 0 then _ else _) _ _
  by_cases hzero : rate ≤ 0
  · rw [if_pos hzero]
    exact .admitted (List.nil_append _).symm hpaused (lt_of_le_of_lt hzero zero_lt_one) fun hpos =>
      absurd hzero (not_le_of_gt hpos)
  · rw [if_neg hzero]
    have hpos : 0 < rate := lt_of_not_ge hzero
    by_cases hone : 1 ≤ rate
    · rw [if_pos hone]
      exact .injected (List.nil_append _).symm hpaused hpos fun hlt => absurd hone (not_le_of_gt hlt)
    · rw [if_neg hone]
      have hlt : rate < 1 := lt_of_not_ge hone
      refine ⟨⟨rate, List.mem_cons_self, hpos, hlt⟩, ?_⟩
      rintro (x : Rat) _ ⟨-, rfl⟩
      show ChaosDone _ .job (if decide (x < rate) = true then .injected else .admitted)
      split
      · rename_i hx
        exact @ChaosDone.injected _ rate [_] _ rfl hpaused hpos fun _ =>
          ⟨x, List.mem_cons_self, of_decide_eq_true hx⟩
      · rename_i hx
        exact @ChaosDone.admitted _ rate [_] _ rfl hpaused hlt fun _ =>
          ⟨x, List.mem_cons_self, le_of_not_gt fun h => hx (decide_eq_true h)⟩

theorem wp_applyChaos : Prog.wp (recorder (chaosMay .job) ownAnswers) applyChaos
    (fun reply h => ChaosDone h .job reply) h := by
  have hfails : ∀ h, Paused h → Prog.wp (recorder (chaosMay .job) ownAnswers)
      (shouldFailRequest.bind fun fails => .ret (if fails then .injected else .admitted))
      (fun reply h => ChaosDone h .job reply) h := fun h hpaused =>
    (wp_bind _ _ _ _).mpr (wp_shouldFailRequest hpaused)
  refine ⟨trivial, ?_⟩
  rintro (latency : Rat) _ ⟨-, rfl⟩
  show Prog.wp _ (Prog.bind (if 0 < latency then _ else _) _) _ _
  split
  · rename_i hlatency
    refine ⟨⟨List.mem_cons_self, hlatency⟩, ?_⟩
    rintro _ _ ⟨-, rfl⟩
    exact hfails _ ⟨latency, List.mem_cons_of_mem _ List.mem_cons_self, fun _ => List.mem_cons_self⟩
  · rename_i hlatency
    exact hfails _ ⟨latency, List.mem_cons_self, fun hpos => absurd hpos hlatency⟩

theorem wp_readyz : Prog.wp (recorder (chaosMay .readyz) ownAnswers) readyz
    (fun reply h => ChaosDone h .readyz reply) h := by
  refine ⟨trivial, ?_⟩
  rintro forced _ ⟨-, rfl⟩
  cases forced with
  | true => exact .forced List.mem_cons_self
  | false =>
    refine ⟨trivial, ?_⟩
    rintro report _ ⟨-, rfl⟩
    exact .probed (List.mem_cons_of_mem _ List.mem_cons_self) List.mem_cons_self

theorem wp_task (task : ChaosTask) : Prog.wp (recorder (chaosMay task) ownAnswers) task.prog
    (fun reply h => ChaosDone h task reply) [] := by
  cases task with
  | setChaos request =>
    refine ⟨⟨rfl, rfl⟩, ?_⟩
    rintro state _ ⟨-, rfl⟩
    exact .settings List.mem_cons_self
  | readyz => exact wp_readyz
  | job => exact wp_applyChaos

end Request

/-! ## All requests -/

section Server

variable {config : Config} {tasks : Nat → ChaosTask}

def chaosDiscipline (config : Config) (tasks : Nat → ChaosTask) :
    Machine.Discipline (chaosServer config tasks).atomically where
  may n := chaosMay (tasks n)
  answers := ownAnswers
  post n reply h := ChaosDone h (tasks n) reply
  keeps n := wp_task (tasks n)
  answered := by
    rintro s (m | q) ch r s' h
    · trivial
    · cases q with
      | random =>
        obtain ⟨x, hx, heq⟩ := Option.map_eq_some_iff.mp h
        cases heq
        simp only [chaosServer, answerOwn] at hx
        split at hx
        · rename_i hbounds
          rwa [← Option.some.inj hx]
        · cases hx
      | sleep => trivial
      | probe => trivial

abbrev ChaosEntry : Type :=
  Entry Nat (Op ChaosController.methods ChaosOwn) ChaosChoice ChaosState (Op.Resp ChaosOwn.Back)

/-- The requests that have been applied, with who has sent them, latest first. -/
def applied (log : List ChaosEntry) : List (Nat × ChaosRequest) :=
  log.filterMap fun e => match e.req with
    | .method (.apply request) => some (e.who, request)
    | _ => none

/-- The settings that they have made. -/
def made (order : List (Nat × ChaosRequest)) : ChaosState := settings (order.map Prod.snd)

theorem applied_cons_of_ne {e : ChaosEntry} (log : List ChaosEntry)
    (he : ∀ r, e.req ≠ .method (.apply r)) : applied (e :: log) = applied log := by
  refine List.filterMap_cons_none ?_
  split
  · rename_i r hr
    exact absurd hr (he r)
  · rfl

theorem mem_applied {log : List ChaosEntry} {n : Nat} {r : ChaosRequest} :
    (n, r) ∈ applied log ↔ ∃ state, told (.apply r) state ∈ history n log := by
  unfold applied
  rw [List.mem_filterMap]
  constructor
  · rintro ⟨⟨who, s, q, ch, a⟩, he, heq⟩
    dsimp only at heq
    split at heq
    · cases heq
      exact ⟨a, mem_history.mpr ⟨_, he, rfl, rfl⟩⟩
    · cases heq
  · rintro ⟨state, hmem⟩
    obtain ⟨⟨who, s, q, ch, a⟩, he, rfl, heq⟩ := mem_history.mp hmem
    cases heq
    exact ⟨_, he, rfl⟩

theorem whole_apply (n : Nat) (r : ChaosRequest) (order : List (Nat × ChaosRequest)) :
    whole (ChaosController.body (.apply r)) (made order) = (made ((n, r) :: order), made ((n, r) :: order)) := by
  rw [made, made, List.map_cons, settings_cons]
  rfl

/-- The other methods of the requests leave the settings alone. -/
theorem whole_state {m : ChaosController.Name} (hreset : m ≠ .reset) (happly : ∀ r, m ≠ .apply r)
    (s : ChaosState) : (whole (ChaosController.body m) s).2 = s := by
  cases m with
  | apply r => exact absurd rfl (happly r)
  | reset => exact absurd rfl hreset
  | _ => rfl

theorem applied_append (later earlier : List ChaosEntry) :
    applied (later ++ earlier) = applied later ++ applied earlier := List.filterMap_append

theorem applied_suffix {log later earlier : List ChaosEntry} (hlog : log = later ++ earlier) :
    applied earlier <:+ applied log :=
  ⟨applied later, by rw [hlog, applied_append]⟩

/-- What the log of a serial run shows: a method is answered by the settings of the requests before it. -/
structure Consistent (s : ChaosState) (log : List ChaosEntry) : Prop where
  state : s = made (applied log)
  once : ((applied log).map Prod.fst).Nodup
  answers : ∀ {later e earlier m a}, log = later ++ e :: earlier →
    (⟨e.req, e.resp⟩ : ChaosEvent) = told m a →
    a = (whole (ChaosController.body m) (made (applied earlier))).1

theorem Consistent.cons {s s' : ChaosState} {log : List ChaosEntry} {e : ChaosEntry} (h : Consistent s log)
    (hstate : s' = made (applied (e :: log))) (honce : ((applied (e :: log)).map Prod.fst).Nodup)
    (hanswer : ∀ m a, (⟨e.req, e.resp⟩ : ChaosEvent) = told m a →
      a = (whole (ChaosController.body m) s).1) : Consistent s' (e :: log) where
  state := hstate
  once := honce
  answers := by
    intro later e' earlier m a hlog hev
    cases later with
    | nil =>
      obtain ⟨rfl, rfl⟩ := List.cons.inj hlog
      rw [hanswer m a hev, h.state]
    | cons e'' later => exact h.answers (List.cons.inj hlog).2 hev

/-- An entry that applies nothing. -/
theorem Consistent.skip {s : ChaosState} {log : List ChaosEntry} {e : ChaosEntry} (h : Consistent s log)
    (hne : ∀ r, e.req ≠ .method (.apply r))
    (hanswer : ∀ m a, (⟨e.req, e.resp⟩ : ChaosEvent) = told m a →
      a = (whole (ChaosController.body m) s).1) : Consistent s (e :: log) := by
  have hsame := applied_cons_of_ne log hne
  exact h.cons (hsame ▸ h.state) (hsame ▸ h.once) hanswer

abbrev SerialRun : Type := Coarse ChaosController.methods ChaosOwn ChaosOwn.Back Nat ChaosChoice ChaosReply

abbrev ChaosGuard : Type :=
  Machine.Guard Nat (Op ChaosController.methods ChaosOwn) ChaosChoice ChaosState (Op.Resp ChaosOwn.Back)

theorem settled_of_reach {G : ChaosGuard} {c : SerialRun}
    (h : (chaosServer config tasks).atomically.Reach G (Machine.initial {}) c) : Consistent c.state c.log := by
  refine h.invariant (P := Consistent) ⟨rfl, .nil, fun hlog => absurd hlog (by simp)⟩
    (fun _ _ m => nomatch m) fun c n q k ch r s' hr hP hi hp _ => ?_
  have hmay := hr.may (chaosDiscipline config tasks) hi
  cases q with
  | own q =>
    obtain ⟨x, -, heq⟩ := Option.map_eq_some_iff.mp hp
    obtain ⟨rfl, rfl⟩ := Prod.mk.inj heq
    exact hP.skip nofun nofun
  | method m =>
    obtain ⟨rfl, rfl⟩ := Prod.mk.inj (Option.some.inj hp).symm
    by_cases happly : ∃ r, m = .apply r
    · obtain ⟨request, rfl⟩ := happly
      have hfirst : history n c.log = [] := hmay.2
      refine hP.cons ?_ (List.nodup_cons.mpr ⟨?_, hP.once⟩) ?_
      · rw [hP.state]
        exact congrArg Prod.snd (whole_apply n request _)
      · rw [List.mem_map]
        rintro ⟨⟨n', r'⟩, hmem, rfl⟩
        obtain ⟨state, hbefore⟩ := mem_applied.mp hmem
        rw [hfirst] at hbefore
        cases hbefore
      · intro m a hev
        cases hev
        rfl
    · have hother : ∀ r, m ≠ .apply r := fun r hr => happly ⟨r, hr⟩
      have hreset : m ≠ .reset := by
        rintro rfl
        exact hmay.elim
      have hstate : (whole (ChaosController.body m) c.state).2 = c.state := whole_state hreset hother c.state
      show Consistent (whole (ChaosController.body m) c.state).2 _
      rw [hstate]
      refine hP.skip (fun r hr => hother r (Op.method.inj hr)) fun m' a hev => ?_
      cases hev
      rfl

/-- The reply to a request by the settings that were made `earlier`; a job request has paused by those
that were made `sooner`. -/
inductive Explained (sooner earlier : List (Nat × ChaosRequest)) (own : Event ChaosOwn ChaosOwn.Back → Prop)
    (n : Nat) : ChaosTask → ChaosReply → Prop
  | settings {request : ChaosRequest} :
      Explained sooner earlier own n (.setChaos request) (.settings (made ((n, request) :: earlier)))
  | forced (hforced : (made earlier).failReadiness = true) :
      Explained sooner earlier own n .readyz forcedFailure
  | probed {report : Report} (hforced : (made earlier).failReadiness = false) (hprobe : own ⟨.probe, report⟩) :
      Explained sooner earlier own n .readyz (readinessOf report)
  | injected
      (hpause : 0 < (made sooner).latencyMs → own ⟨.sleep ((made sooner).latencyMs / 1000), ()⟩)
      (hrate : 0 < (made earlier).errorRate)
      (hdraw : (made earlier).errorRate < 1 → ∃ x : Rat, own ⟨.random, x⟩ ∧ x < (made earlier).errorRate) :
      Explained sooner earlier own n .job .injected
  | admitted
      (hpause : 0 < (made sooner).latencyMs → own ⟨.sleep ((made sooner).latencyMs / 1000), ()⟩)
      (hrate : (made earlier).errorRate < 1)
      (hdraw : 0 < (made earlier).errorRate → ∃ x : Rat, own ⟨.random, x⟩ ∧ (made earlier).errorRate ≤ x) :
      Explained sooner earlier own n .job .admitted

theorem mem_ownCoarse {log : List ChaosEntry} {n : Nat} {q : ChaosOwn} {r : q.Back} :
    (n, ⟨q, r⟩) ∈ ownCoarse log ↔ showed q r ∈ history n log := by
  unfold ownCoarse
  rw [List.mem_filterMap]
  constructor
  · rintro ⟨⟨who, s, q', ch, a⟩, he, heq⟩
    obtain ⟨v, hv, hpair⟩ := Option.map_eq_some_iff.mp heq
    cases q' with
    | method m => cases hv
    | own q' =>
      cases hv
      cases hpair
      exact mem_history.mpr ⟨_, he, rfl, rfl⟩
  · intro hmem
    obtain ⟨⟨who, s, q', ch, a⟩, he, rfl, heq⟩ := mem_history.mp hmem
    cases heq
    exact ⟨_, he, rfl⟩

theorem applied_routed {G : ChaosGuard} {c : SerialRun}
    (h : (chaosServer config tasks).atomically.Reach G (Machine.initial {}) c) {n : Nat} {r : ChaosRequest}
    (hmem : (n, r) ∈ applied c.log) : config.enableChaosEndpoint = true ∧ tasks n = .setChaos r := by
  obtain ⟨state, hhistory⟩ := mem_applied.mp hmem
  obtain ⟨⟨who, s, q, ch, a⟩, he, rfl, heq⟩ := mem_history.mp hhistory
  cases heq
  obtain ⟨later, earlier, hlog⟩ := List.append_of_mem he
  obtain ⟨⟨htask, -⟩, -⟩ := h.entry (chaosDiscipline config tasks) hlog
  have hrouted := h.since_start (F := fun n _ => (tasks n).routed config = true) (fun _ _ hs => hs)
    (fun _ _ _ _ h _ => h) (fun _ _ _ _ _ _ h _ => h) who fun hidle => by
      rw [h.history_of_idle hidle] at hhistory
      cases hhistory
  have htask' : tasks who = .setChaos r := htask
  rw [htask'] at hrouted
  exact ⟨hrouted, htask'⟩

/-- The requests of those that precede `n` in the log are among the earlier ones. -/
def UpToDate (log : List ChaosEntry) (n : Nat) (earlier : List (Nat × ChaosRequest)) : Prop :=
  ∀ m r, (m, r) ∈ applied log → Precedes m n (log.map Entry.who) → (m, r) ∈ earlier

theorem upToDate_of_entry {log later earlier : List ChaosEntry} {e : ChaosEntry}
    (hlog : log = later ++ e :: earlier) : UpToDate log e.who (applied earlier) := by
  intro m r hmem hprec
  obtain ⟨state, happlied⟩ := mem_applied.mp hmem
  obtain ⟨e', he', hwho, hev⟩ := mem_history.mp happlied
  exact mem_applied.mpr ⟨state, mem_history.mpr
    ⟨e', hprec.mem_earlier hlog rfl he' hwho, hwho, hev⟩⟩

/-- What a method has answered, and by which settings. -/
theorem answered_by {s : ChaosState} {log : List ChaosEntry} (hs : Consistent s log) {n : Nat}
    {m : ChaosController.Name} {a : ChaosController.Ans m} {after before : List ChaosEvent}
    (h : history n log = after ++ told m a :: before) : ∃ later e earlier, log = later ++ e :: earlier ∧
      e.who = n ∧ history n earlier = before ∧ (⟨e.req, e.resp⟩ : ChaosEvent) = told m a ∧
      UpToDate log n (applied earlier) ∧ a = (whole (ChaosController.body m) (made (applied earlier))).1 := by
  obtain ⟨later, e, earlier, hlog, rfl, hev, hbefore⟩ := split_of_history h
  exact ⟨later, e, earlier, hlog, rfl, hbefore, hev, upToDate_of_entry hlog, hs.answers hlog hev⟩

theorem answered_by_mem {s : ChaosState} {log : List ChaosEntry} (hs : Consistent s log) {n : Nat}
    {m : ChaosController.Name} {a : ChaosController.Ans m} (h : told m a ∈ history n log) :
    ∃ later e earlier, log = later ++ e :: earlier ∧ e.who = n ∧
      (⟨e.req, e.resp⟩ : ChaosEvent) = told m a ∧ UpToDate log n (applied earlier) ∧
      a = (whole (ChaosController.body m) (made (applied earlier))).1 := by
  obtain ⟨after, before, hsplit⟩ := List.append_of_mem h
  obtain ⟨later, e, earlier, hlog, hwho, -, hev, hup, ha⟩ := answered_by hs hsplit
  exact ⟨later, e, earlier, hlog, hwho, hev, hup, ha⟩

/-- The pause that a job request has made by then. -/
theorem paused_by {s : ChaosState} {log later earlier : List ChaosEntry} (hs : Consistent s log) {n : Nat}
    {e : ChaosEntry} (hlog : log = later ++ e :: earlier) (h : Paused (history n earlier)) :
    ∃ sooner, sooner <:+ applied earlier ∧ UpToDate log n sooner ∧ (0 < (made sooner).latencyMs →
      (n, ⟨.sleep ((made sooner).latencyMs / 1000), ()⟩) ∈ ownCoarse log) := by
  obtain ⟨latency, htold, hslept⟩ := h
  obtain ⟨after, before, hsplit⟩ := List.append_of_mem htold
  obtain ⟨later', e', sooner, rfl, rfl, hev, -⟩ := split_of_history hsplit
  have hlog' : log = (later ++ e :: later') ++ e' :: sooner := by
    rw [hlog, List.append_assoc, List.cons_append]
  have hlatency : latency = (made (applied sooner)).latencyMs / 1000 := hs.answers hlog' hev
  refine ⟨applied sooner, applied_suffix (List.append_cons _ _ _), upToDate_of_entry hlog', fun hpos => ?_⟩
  have hslept' : showed (.sleep latency) () ∈ history e'.who (later' ++ e' :: sooner) := by
    refine hslept ?_
    rw [hlatency]
    exact div_pos (Int.cast_pos.mpr hpos) (by norm_num)
  rw [← hlatency, mem_ownCoarse, hlog, history_append]
  refine List.mem_append_right _ ?_
  obtain ⟨e'', he'', hwho, hev'⟩ := mem_history.mp hslept'
  exact mem_history.mpr ⟨e'', List.mem_cons_of_mem _ he'', hwho, hev'⟩

theorem explained_of_done {c : SerialRun} (hs : Consistent c.state c.log) {n : Nat} {reply : ChaosReply}
    (h : ChaosDone (history n c.log) (tasks n) reply) : ∃ sooner earlier, sooner <:+ earlier ∧
      earlier <:+ applied c.log ∧ UpToDate c.log n sooner ∧
      (∀ r, tasks n = .setChaos r → ((n, r) :: earlier) <:+ applied c.log) ∧
      Explained sooner earlier (fun v => (n, v) ∈ ownCoarse c.log) n (tasks n) reply := by
  generalize htask : tasks n = task at h
  have hno : ∀ {earlier : List (Nat × ChaosRequest)}, (∀ r, task ≠ .setChaos r) →
      ∀ r, task = .setChaos r → ((n, r) :: earlier) <:+ applied c.log :=
    fun hne r hr => absurd hr (hne r)
  have hdrawn : ∀ {x : Rat}, showed .random x ∈ history n c.log → (n, ⟨.random, x⟩) ∈ ownCoarse c.log :=
    fun hx => mem_ownCoarse.mpr hx
  cases h with
  | @settings request state happlied =>
    obtain ⟨later, e, earlier, hlog, hwho, hev, hup, ha⟩ := answered_by_mem hs happlied
    have hstate : state = made ((n, request) :: applied earlier) :=
      ha.trans (congrArg Prod.fst (whole_apply n request _))
    rw [hstate]
    refine ⟨_, _, List.suffix_rfl, applied_suffix (hlog.trans (List.append_cons _ _ _)), hup,
      fun r hr => ?_, .settings⟩
    cases hr
    have hself : applied (e :: earlier) = (n, request) :: applied earlier := by
      obtain ⟨who, s, q, ch, a⟩ := e
      obtain rfl : who = n := hwho
      cases hev
      rfl
    exact hself ▸ applied_suffix hlog
  | forced hforced =>
    obtain ⟨later, e, earlier, hlog, -, -, hup, ha⟩ := answered_by_mem hs hforced
    exact ⟨_, _, List.suffix_rfl, applied_suffix (hlog.trans (List.append_cons _ _ _)), hup, hno nofun,
      .forced ha.symm⟩
  | probed hforced hprobe =>
    obtain ⟨later, e, earlier, hlog, -, -, hup, ha⟩ := answered_by_mem hs hforced
    exact ⟨_, _, List.suffix_rfl, applied_suffix (hlog.trans (List.append_cons _ _ _)), hup, hno nofun,
      .probed ha.symm (mem_ownCoarse.mpr hprobe)⟩
  | @injected rate after before hh hpaused hpos hdraw =>
    obtain ⟨later, e, earlier, hlog, -, rfl, -, -, ha⟩ := answered_by hs hh
    obtain ⟨sooner, hsooner, hup, hpause⟩ := paused_by hs hlog hpaused
    obtain rfl : rate = (made (applied earlier)).errorRate := ha
    exact ⟨sooner, _, hsooner, applied_suffix (hlog.trans (List.append_cons _ _ _)), hup, hno nofun,
      .injected hpause hpos fun hlt => (hdraw hlt).imp fun x hx => ⟨hdrawn hx.1, hx.2⟩⟩
  | @admitted rate after before hh hpaused hlt hdraw =>
    obtain ⟨later, e, earlier, hlog, -, rfl, -, -, ha⟩ := answered_by hs hh
    obtain ⟨sooner, hsooner, hup, hpause⟩ := paused_by hs hlog hpaused
    obtain rfl : rate = (made (applied earlier)).errorRate := ha
    exact ⟨sooner, _, hsooner, applied_suffix (hlog.trans (List.append_cons _ _ _)), hup, hno nofun,
      .admitted hpause hlt fun hpos => (hdraw hpos).imp fun x hx => ⟨hdrawn hx.1, hx.2⟩⟩

/-- What a request has asked of its own, it may ask by what it has been answered. -/
theorem ownMay_of_asked {G : ChaosGuard} {c : SerialRun}
    (h : (chaosServer config tasks).atomically.Reach G (Machine.initial {}) c) {n : Nat} {q : ChaosOwn}
    {r : q.Back} (hmem : (n, ⟨q, r⟩) ∈ ownCoarse c.log) : ownMay (tasks n) (history n c.log) q := by
  obtain ⟨⟨who, s, q', ch, a⟩, he, rfl, heq⟩ := mem_history.mp (mem_ownCoarse.mp hmem)
  cases heq
  obtain ⟨later, before, hlog⟩ := List.append_of_mem he
  obtain ⟨hmay, -⟩ := h.entry (chaosDiscipline config tasks) hlog
  have hlater : ∀ {v : ChaosEvent}, v ∈ history who before → v ∈ history who c.log := by
    intro v hv
    rw [hlog, history_append]
    refine List.mem_append_right _ ?_
    rw [history_cons_self ⟨who, s, _, ch, a⟩]
    exact List.mem_cons_of_mem _ hv
  have hmay' : ownMay (tasks who) (history who before) q := hmay
  cases q with
  | sleep seconds => exact ⟨hlater hmay'.1, hmay'.2⟩
  | random =>
    obtain ⟨rate, hrate, hbetween⟩ := hmay'
    exact ⟨rate, hlater hrate, hbetween⟩
  | probe => exact hmay'

abbrev ChaosRun : Type := Fine ChaosState ChaosOwn ChaosOwn.Back Nat ChaosChoice ChaosReply

/-- The requests of the run `d` are answered as if the settings had been made in the order `order`. -/
structure Serialised (config : Config) (tasks : Nat → ChaosTask) (d : ChaosRun)
    (order : List (Nat × ChaosRequest)) : Prop where
  value : d.state.held = false → d.state.value = made order
  once : (order.map Prod.fst).Nodup
  routed : ∀ n r, (n, r) ∈ order → config.enableChaosEndpoint = true ∧ tasks n = .setChaos r
  replies : ∀ n reply, d.result n = some reply → ∃ sooner earlier, sooner <:+ earlier ∧ earlier <:+ order ∧
    (∀ m r, (m, r) ∈ order → Precedes m n (d.log.map Entry.who) → (m, r) ∈ sooner) ∧
    (∀ r, tasks n = .setChaos r → ((n, r) :: earlier) <:+ order) ∧
    Explained sooner earlier (fun v => (n, v) ∈ ownFine d.log) n (tasks n) reply
  pauses : ∀ n (seconds : Rat), (n, ⟨.sleep seconds, ()⟩) ∈ ownFine d.log → ∃ earlier, earlier <:+ order ∧
    (∀ m r, (m, r) ∈ order → Precedes m n (d.log.map Entry.who) → (m, r) ∈ earlier) ∧
    seconds = (made earlier).latencyMs / 1000 ∧ 0 < seconds
  draws : ∀ n (x : Rat), (n, ⟨.random, x⟩) ∈ ownFine d.log → ∃ earlier, earlier <:+ order ∧
    0 < (made earlier).errorRate ∧ (made earlier).errorRate < 1

section Runs

variable {G : Machine.Guard Nat (Micro ChaosState ChaosOwn) ChaosChoice (Locked ChaosState)
  (Micro.Resp ChaosOwn.Back)} {d : ChaosRun}

theorem serialised (h : (chaosServer config tasks).interleaved.Reach G (Machine.initial ⟨false, {}⟩) d) :
    ∃ order, Serialised config tasks d order := by
  obtain ⟨c, hc, hserial⟩ := Serial.of_reach h
  have hs := settled_of_reach hc
  have hrecent : ∀ {n earlier}, UpToDate c.log n earlier → ∀ m r, (m, r) ∈ applied c.log →
      Precedes m n (d.log.map Entry.who) → (m, r) ∈ earlier := fun hup m r hmem hprec =>
    hup m r hmem (hprec.sublist hserial.order)
  refine ⟨applied c.log, fun hheld => ?_, hs.once, fun n r hmem => applied_routed hc hmem,
    fun n reply hreply => ?_, fun n seconds hmem => ?_, fun n x hmem => ?_⟩
  · cases hserial.abreast with
    | free _ hvalue _ => exact hvalue.trans hs.state
    | taken hheld' _ _ =>
      rw [hheld] at hheld'
      cases hheld'
  · rw [hserial.owns]
    obtain ⟨sooner, earlier, hsooner, hearlier, hup, happlied, hexplained⟩ := explained_of_done hs
      (hc.post (chaosDiscipline config tasks) (Snapshot.result_eq_some.mp (hserial.result.mpr hreply)))
    exact ⟨sooner, earlier, hsooner, hearlier, hrecent hup, happlied, hexplained⟩
  · obtain ⟨hanswered, hpos⟩ := ownMay_of_asked hc (hserial.owns ▸ hmem)
    obtain ⟨later, e, earlier, hlog, -, -, hup, ha⟩ := answered_by_mem hs hanswered
    exact ⟨_, applied_suffix (hlog.trans (List.append_cons _ _ _)), hrecent hup, ha, hpos⟩
  · obtain ⟨rate, hanswered, hpos, hlt⟩ := ownMay_of_asked hc (hserial.owns ▸ hmem)
    obtain ⟨later, e, earlier, hlog, -, -, hup, ha⟩ := answered_by_mem hs hanswered
    have hrate : rate = (made (applied earlier)).errorRate := ha
    exact ⟨_, applied_suffix (hlog.trans (List.append_cons _ _ _)), hrate ▸ hpos, hrate ▸ hlt⟩

/-- The `POST`s that had been answered at some point of the run up to `d` at which the request `n` had
not begun. -/
def AnsweredBefore (config : Config) (tasks : Nat → ChaosTask) (d : ChaosRun) (n m : Nat)
    (r : ChaosRequest) : Prop :=
  tasks m = .setChaos r ∧ ∃ d₀ reply,
    (chaosServer config tasks).interleaved.Reach Machine.always (Machine.initial ⟨false, {}⟩) d₀ ∧
    (chaosServer config tasks).interleaved.Reach Machine.always d₀ d ∧
    d₀.result m = some reply ∧ d₀.thread n = .idle

theorem Serialised.recent {order : List (Nat × ChaosRequest)} (hs : Serialised config tasks d order)
    {n m : Nat} {r : ChaosRequest} (h : AnsweredBefore config tasks d n m r) :
    (m, r) ∈ order ∧ Precedes m n (d.log.map Entry.who) := by
  obtain ⟨htask, d₀, reply, h₀, h₁, hreply, hidle⟩ := h
  have hthread := Snapshot.result_eq_some.mp hreply
  obtain ⟨sooner, earlier, -, -, -, happlied, -⟩ :=
    hs.replies m reply (Snapshot.result_eq_some.mpr (h₁.returned hthread))
  exact ⟨(happlied r htask).subset List.mem_cons_self, h₀.precedes h₁ hthread hidle⟩

/-- **The settings are made one after another**: however the requests of a replica interleave, there is
an order of the applied ones, each of a different `POST`, by which the settings are the last ones made
and every reply and every pause is explained by the settings at some point of it. Real time does not
contradict it: the point comes after every `POST` that was answered before the request began. A pause
is at most a minute long. -/
theorem chaos_is_serial (h : (chaosServer config tasks).interleaved.Reach G (Machine.initial ⟨false, {}⟩) d) :
    ∃ order : List (Nat × ChaosRequest),
      (d.state.held = false → d.state.value = made order) ∧ (order.map Prod.fst).Nodup ∧
      (∀ n r, (n, r) ∈ order → config.enableChaosEndpoint = true ∧ tasks n = .setChaos r) ∧
      (∀ n reply, d.result n = some reply → ∃ sooner earlier, sooner <:+ earlier ∧ earlier <:+ order ∧
        (∀ m r, AnsweredBefore config tasks d n m r → (m, r) ∈ sooner) ∧
        (∀ r, tasks n = .setChaos r → ((n, r) :: earlier) <:+ order) ∧
        Explained sooner earlier (fun v => (n, v) ∈ ownFine d.log) n (tasks n) reply) ∧
      ∀ n (seconds : Rat), (n, ⟨.sleep seconds, ()⟩) ∈ ownFine d.log → 0 < seconds ∧ seconds ≤ 60 ∧
        ∃ earlier, earlier <:+ order ∧ (∀ m r, AnsweredBefore config tasks d n m r → (m, r) ∈ earlier) ∧
          seconds = (made earlier).latencyMs / 1000 := by
  obtain ⟨order, hs⟩ := serialised h
  refine ⟨order, hs.value, hs.once, hs.routed, fun n reply hreply => ?_, fun n seconds hmem => ?_⟩
  · obtain ⟨sooner, earlier, hsooner, hearlier, hup, hrest⟩ := hs.replies n reply hreply
    refine ⟨sooner, earlier, hsooner, hearlier, fun m r hbefore => ?_, hrest⟩
    obtain ⟨hmem, hprec⟩ := hs.recent hbefore
    exact hup m r hmem hprec
  · obtain ⟨earlier, hsuffix, hup, hseconds, hpos⟩ := hs.pauses n seconds hmem
    refine ⟨hpos, ?_, earlier, hsuffix, fun m r hbefore => ?_, hseconds⟩
    · have hbound : ((made earlier).latencyMs : Rat) ≤ 60000 := by
        exact_mod_cast (settings_bounds (earlier.map Prod.snd)).1.2
      rw [hseconds]
      linarith
    · obtain ⟨hm, hprec⟩ := hs.recent hbefore
      exact hup m r hm hprec

/-- **Without the flag there is no chaos**: the jobs are admitted without a pause and without a draw, and
`/readyz` answers with what the probe has found. -/
theorem chaos_off (hoff : config.enableChaosEndpoint = false)
    (h : (chaosServer config tasks).interleaved.Reach G (Machine.initial ⟨false, {}⟩) d) :
    (∀ n reply, d.result n = some reply → tasks n = .job ∧ reply = .admitted ∨
      tasks n = .readyz ∧ ∃ report, (n, ⟨.probe, report⟩) ∈ ownFine d.log ∧ reply = readinessOf report) ∧
    ∀ n q r, (n, ⟨q, r⟩) ∈ ownFine d.log → q = .probe := by
  obtain ⟨order, hs⟩ := serialised h
  have hnone : order = [] := by
    refine List.eq_nil_iff_forall_not_mem.mpr fun ⟨n, r⟩ hmem => ?_
    rw [(hs.routed n r hmem).1] at hoff
    cases hoff
  have hdefault : ∀ {earlier}, earlier <:+ order → made earlier = {} := by
    intro earlier hsuffix
    rw [hnone, List.suffix_nil] at hsuffix
    rw [hsuffix]
    rfl
  constructor
  · intro n reply hreply
    obtain ⟨sooner, earlier, -, hsuffix, -, happlied, hexplained⟩ := hs.replies n reply hreply
    have hmade := hdefault hsuffix
    generalize htask : tasks n = task at hexplained
    cases hexplained with
    | @settings request =>
      rw [hnone] at happlied
      exact absurd (List.suffix_nil.mp (happlied request htask)) (List.cons_ne_nil _ _)
    | forced hforced =>
      rw [hmade] at hforced
      cases hforced
    | probed _ hprobe => exact .inr ⟨rfl, _, hprobe, rfl⟩
    | injected _ hrate =>
      rw [hmade] at hrate
      exact absurd hrate (lt_irrefl 0)
    | admitted => exact .inl ⟨rfl, rfl⟩
  · intro n q r hmem
    cases q with
    | probe => rfl
    | sleep seconds =>
      obtain ⟨earlier, hsuffix, -, hseconds, hpos⟩ := hs.pauses n seconds hmem
      rw [hseconds, hdefault hsuffix] at hpos
      simp at hpos
    | random =>
      obtain ⟨earlier, hsuffix, hpos, -⟩ := hs.draws n r hmem
      rw [hdefault hsuffix] at hpos
      exact absurd hpos (lt_irrefl 0)

end Runs

end Server

/-! ## Scenes -/

namespace Surroundings

/-- Every job request is to fail. -/
def allErrors : ChaosRequest where
  failReadiness := none
  latencyMs := none
  errorRate := some 1
  latency_bounds := nofun
  rate_bounds r hr := by
    obtain rfl := Option.some.inj hr
    exact ⟨zero_le_one, le_refl 1⟩

def chaosTasks : Nat → ChaosTask
  | 0 => .setChaos allErrors
  | 1 => .job
  | 2 => .readyz
  | _ => .job

abbrev chaosReplica : Clients ChaosController.methods ChaosOwn ChaosOwn.Back Nat ChaosChoice ChaosReply :=
  chaosServer { config with enableChaosEndpoint := true } chaosTasks

/-- A job request has read the latency when the settings change; it fails by the new ones. -/
def upset : ChaosRun :=
  chaosReplica.interleaved.played (Machine.initial ⟨false, {}⟩)
    ([.start 0, .start 1] ++ List.replicate 3 (.act 1 {}) ++ List.replicate 5 (.act 0 {}) ++
      List.replicate 3 (.act 1 {}))

/-- Another one begins after that. -/
def upsetLater : ChaosRun :=
  chaosReplica.interleaved.played upset (.start 3 :: List.replicate 6 (.act 3 {}))

theorem reach_upset : chaosReplica.interleaved.Reach Machine.always (Machine.initial ⟨false, {}⟩) upset :=
  Machine.Reach.refl.played _

theorem reach_upsetLater : chaosReplica.interleaved.Reach Machine.always upset upsetLater :=
  Machine.Reach.refl.played _

theorem upset_results : upset.result 0 = some (.settings (({} : ChaosState).updated allErrors)) ∧
    upsetLater.result 1 = some .injected ∧ upsetLater.result 3 = some .injected := by
  decide +kernel

theorem upset_idle : upset.thread 3 = .idle := Machine.played_thread (by decide)

theorem chaos_is_serial_upset : ∃ order : List (Nat × ChaosRequest), ∃ sooner earlier,
    sooner <:+ earlier ∧ earlier <:+ order ∧ (0, allErrors) ∈ sooner ∧
      Explained sooner earlier (fun v => (3, v) ∈ ownFine upsetLater.log) 3 .job .injected := by
  obtain ⟨order, -, -, -, hreplies, -⟩ := chaos_is_serial (reach_upset.trans reach_upsetLater)
  obtain ⟨sooner, earlier, hsooner, hearlier, hup, -, hexplained⟩ :=
    hreplies 3 .injected upset_results.2.2
  exact ⟨order, sooner, earlier, hsooner, hearlier,
    hup 0 allErrors ⟨rfl, upset, _, reach_upset, reach_upsetLater, upset_results.1, upset_idle⟩, hexplained⟩

/-- The same replica without the flag: a readiness probe. -/
def calm : ChaosRun :=
  (chaosServer config chaosTasks).interleaved.played (Machine.initial ⟨false, {}⟩)
    (.start 2 :: List.replicate 4 (.act 2 {}))

theorem chaos_off_calm : ∃ report, (2, ⟨.probe, report⟩) ∈ ownFine calm.log ∧
    readinessOf (true, []) = readinessOf report := by
  obtain ⟨-, h⟩ | ⟨-, h⟩ := (chaos_off rfl (Machine.Reach.refl.played _)).1 2 (readinessOf (true, []))
    (by rfl : calm.result 2 = _)
  · cases h
  · exact h

end Surroundings

end PixelForge
