import PixelForge.Shared.LoadConfig
import PixelForge.Shared.Readiness
import PixelForge.Worker.Consumer

/-! # The worker process (`worker/main.py`, `Worker.run`)

`workerMain` is the life of a worker: it reads its configuration, starts the metrics server, builds its
clients, waits for its dependencies and polls until it is asked to stop, which it notices after `rounds`
iterations. The logging and the tracing are left out, and so is the watchdog of a stop request, which may
end the process at any point once the grace period is over (`Worker/Shutdown`).
-/
set_option autoImplicit false

namespace PixelForge
open Effects

def pollWaitSeconds : Nat := 20
def receiveBackoffSeconds : Rat := 2

namespace Worker

variable (w : Worker) (ext : Externals)

/-- The number of messages handled. -/
def runOnce : Py Nat :=
  Fallible.tryElse (w.clients.queue.receive 1 pollWaitSeconds)
    (fun e =>
      if e.isDependency then do
        ask (.sleep receiveBackoffSeconds)
        pure 0
      else Fallible.raise e)
    fun messages => do
      let _ ← Fallible.forEach (w.handleMessage ext) messages
      pure messages.length

/-- `run`, whose loop makes `rounds` iterations before it finds `_stopping` set. -/
def run : Nat → Py Unit
  | 0 => pure ()
  | rounds + 1 =>
    Fallible.tryElse (w.runOnce ext)
      (fun _ => do
        ask (.sleep receiveBackoffSeconds)
        run rounds)
      fun _ => run rounds

end Worker

def exitGraceExceeded : Nat := 1
def exitConfig : Nat := 78

/-- `except ConfigError`. -/
def Exc.isConfig : Exc → Bool
  | .python (.other name) _ => name == "ConfigError"
  | _ => false

/-- What comes of the metrics server and of boto3's clients at the start of a process. What they raise
(an `OSError` for a port that is taken, a `ValueError` for an endpoint or a region that boto3 refuses) is
no exception of this repository. -/
structure Startup where
  startHttpServer : Except Exc Unit := .ok ()
  buildClients : Config → Except Exc Unit := fun _ => .ok ()
  server_foreign : ∀ e, startHttpServer = .error e → e.isOwn = false ∧ e.isConfig = false := by simp
  clients_foreign : ∀ config e, buildClients config = .error e →
    e.isOwn = false ∧ e.isConfig = false := by simp

/-- The exception that keeps the process from starting, if there is one. -/
def Startup.error? (up : Startup) (config : Config) : Option Exc :=
  match up.startHttpServer, up.buildClients config with
  | .error e, _ => some e
  | _, .error e => some e
  | _, _ => none

/-- `run` of `worker/main.py`, once the configuration has been read. -/
def workerRun (ext : Externals) (up : Startup) (config : Config) (rounds : Nat) : Py Nat := do
  Fallible.ofExcept up.startHttpServer
  Fallible.tryElse
    (do
      Fallible.ofExcept (up.buildClients config)
      waitForDependencies (.build config))
    (fun
      | .transientDependency _ _ => pure exitGraceExceeded
      | e => Fallible.raise e)
    fun _ => do
      (Worker.build config).run ext rounds
      pure 0

theorem workerRun_of_error {ext : Externals} {up : Startup} {config : Config} {rounds : Nat} {e : Exc}
    (h : up.error? config = some e) :
    workerRun ext up config rounds = Fallible.raise e ∧ e.isConfig = false := by
  unfold workerRun
  cases hserver : up.startHttpServer with
  | error e' =>
    simp only [Startup.error?, hserver, Option.some.injEq] at h
    subst h
    exact ⟨rfl, (up.server_foreign e' hserver).2⟩
  | ok _ =>
    cases hclients : up.buildClients config with
    | error e' =>
      simp only [Startup.error?, hserver, hclients, Option.some.injEq] at h
      subst h
      obtain ⟨hown, hconfig⟩ := up.clients_foreign config e' hclients
      refine ⟨?_, hconfig⟩
      cases e' with
      | transientDependency text operation => cases hown
      | _ => rfl
    | ok _ =>
      simp only [Startup.error?, hserver, hclients] at h
      cases h

/-- A process that starts goes on with the wait for its dependencies. -/
theorem workerRun_of_started {ext : Externals} {up : Startup} {config : Config} {rounds : Nat}
    (h : up.error? config = none) :
    workerRun ext up config rounds = Fallible.tryElse (waitForDependencies (.build config))
      (fun
        | .transientDependency _ _ => pure exitGraceExceeded
        | e => Fallible.raise e)
      (fun _ => do
        (Worker.build config).run ext rounds
        pure 0) := by
  unfold workerRun
  cases hserver : up.startHttpServer with
  | error e => simp [Startup.error?, hserver] at h
  | ok _ =>
    cases hclients : up.buildClients config with
    | error e => simp [Startup.error?, hserver, hclients] at h
    | ok _ => rfl

/-- `main`. What it raises ends the interpreter with a traceback. -/
def workerMain (ext : Externals) (b : Builtins) (up : Startup) (source : Environment) (rounds : Nat) :
    Py Nat :=
  Fallible.tryExcept
    (match loadConfig b source with
      | .error e => Fallible.raise e
      | .ok config => workerRun ext up config rounds)
    fun e => if e.isConfig then pure exitConfig else Fallible.raise e

/-! ## How it ends -/

section Ending

variable {ext : Externals} {h : History}

/-- A run only adds to its history. -/
theorem wp_suffix {α : Type} (p : Prog Request Request.Resp α) (h : History) :
    Prog.wp (recorded ext) p (fun _ h' => h <:+ h') h := by
  suffices hall : ∀ h', h <:+ h' → Prog.wp (recorded ext) p (fun _ h' => h <:+ h') h' from
    hall h List.suffix_rfl
  induction p with
  | ret a => exact fun h' hh => hh
  | call q k ih =>
    refine fun h' hh => ⟨trivial, ?_⟩
    rintro r _ ⟨-, rfl⟩
    exact ih r _ (hh.trans (List.suffix_cons _ _))

/-- A pause and what follows it. -/
theorem wp_sleep {α : Type} {m : Py α} {seconds : Rat} {Q : α → History → Prop}
    {X : Exc → History → Prop}
    (hm : Fallible.wp (recorded ext) m Q X (⟨.sleep seconds, .ok ()⟩ :: h)) :
    Fallible.wp (recorded ext) (do
      ask (.sleep seconds)
      m) Q X h := by
  refine (Fallible.wp_bind _ _ _).mpr ((wp_ask _ _ _ _).mpr ⟨trivial, ?_⟩)
  rintro r _ ⟨ha, rfl⟩
  obtain ⟨x, rfl⟩ := ha.steady rfl
  exact hm

/-- **The loop never raises**, whatever an iteration raises. -/
theorem wp_run_worker (w : Worker) (rounds : Nat) (h : History) :
    Fallible.wp (recorded ext) (w.run ext rounds) (fun _ h' => h <:+ h') (fun _ _ => False) h := by
  suffices hall : ∀ rounds h', h <:+ h' →
      Fallible.wp (recorded ext) (w.run ext rounds) (fun _ h' => h <:+ h') (fun _ _ => False) h' from
    hall rounds h List.suffix_rfl
  intro rounds
  induction rounds with
  | zero => exact fun h' hh => hh
  | succ rounds ih =>
    intro h' hh
    refine (Fallible.wp_tryElse _ _ _ _).mpr (Effects.wp_mono (wp_suffix _ h') ?_)
    rintro (e | n) h'' hs
    · exact wp_sleep (ih _ ((hh.trans hs).trans (List.suffix_cons _ _)))
    · exact ih _ (hh.trans hs)

/-- How the process of a worker with the configuration `config` ends. -/
def Ended (config : Config) (h : History) (code : Nat) : Prop :=
  (code = exitGraceExceeded ∧ ∃ failures,
      Waited ⟨.build config⟩ 10 (pauseAfter (1 / 2) 15) h (.error (unavailable failures))) ∨
    code = 0 ∧ ∃ h₀, h₀ <:+ h ∧ Waited ⟨.build config⟩ 10 (pauseAfter (1 / 2) 15) h₀ (.ok ())

theorem wp_workerRun (up : Startup) (config : Config) (rounds : Nat) :
    Fallible.wp (recorded ext) (workerRun ext up config rounds)
      (fun code h => up.error? config = none ∧ Ended config h code)
      (fun e h => up.error? config = some e ∧ e.isConfig = false ∧ h = []) [] := by
  cases herror : up.error? config with
  | some e =>
    obtain ⟨hrun, hconfig⟩ := @workerRun_of_error ext up config rounds e herror
    rw [hrun]
    exact ⟨rfl, hconfig, rfl⟩
  | none =>
    rw [workerRun_of_started herror]
    have hwait := @wp_waited ext ⟨.build config⟩ 10 (1 / 2) 15 (by norm_num) (by norm_num) (by decide)
      (by decide)
    refine (Fallible.wp_tryElse _ _ _ _).mpr
      (Fallible.wp_mono hwait (fun _ h₀ hw => ?_) fun e h he => ?_)
    · refine (Fallible.wp_bind _ _ _).mpr
        (Fallible.wp_mono (wp_run_worker _ rounds h₀) ?_ fun _ _ hf => hf.elim)
      exact fun _ h hs => ⟨rfl, .inr ⟨rfl, h₀, hs, hw⟩⟩
    · obtain ⟨i, h₀, checks, hi, hw, hs, rfl⟩ := he
      exact ⟨rfl, .inl ⟨rfl, failuresOf checks, i, h₀, checks, hi, hw, hs, rfl⟩⟩

end Ending

/-- How the process ends in an environment. -/
def Exits (b : Builtins) (up : Startup) (source : Environment) (r : Except Exc Nat) (h : History) :
    Prop :=
  match loadConfig b source with
  | .error _ => r = .ok exitConfig ∧ h = []
  | .ok config =>
    match up.error? config with
    | some e => r = .error e ∧ h = []
    | none => ∃ code, r = .ok code ∧ Ended config h code

/-- **The exit of a worker** that its watchdog does not cut short: the code is 78 if its environment is
refused, and a traceback ends it if it cannot serve its metrics or build its clients, and it has asked
nothing then; the code is 1 if it waited for its dependencies in vain, and 0 if it polled until it was
asked to stop. -/
theorem worker_exits {ext : Externals} {b : Builtins} {up : Startup} {source : Environment}
    {rounds : Nat} {r : Except Exc Nat} {h : History}
    (hrun : Steps (recorded ext) (workerMain ext b up source rounds) [] (.ret r) h) :
    Exits b up source r h := by
  have hwp : Fallible.wp (recorded ext) (workerMain ext b up source rounds)
      (fun code h => Exits b up source (.ok code) h) (fun e h => Exits b up source (.error e) h) [] := by
    unfold Exits
    refine (Fallible.wp_tryExcept _ _).mpr ?_
    cases hload : loadConfig b source with
    | error e =>
      obtain ⟨text, rfl⟩ := loadConfig_only e hload
      exact ⟨rfl, rfl⟩
    | ok config =>
      refine Fallible.wp_mono (wp_workerRun up config rounds) (fun code h hcode => ?_) fun e h he => ?_
      · dsimp only
        rw [hcode.1]
        exact ⟨code, rfl, hcode.2⟩
      · rw [he.2.1]
        dsimp only
        rw [he.1]
        exact ⟨rfl, he.2.2⟩
  have hend := hrun.returned hwp
  cases r with
  | ok code => exact hend
  | error e => exact hend

namespace Surroundings

/-- The required variables, each with its own name for a value. -/
def bareEnvironment : Environment := fun name => if name ∈ requiredVars then some name else none

/-- The dependencies answer, and one poll finds the queue empty. -/
theorem worker_exits_idle : ∃ h,
    Steps (recorded small) (workerMain small asciiBuiltins {} bareEnvironment 1) [] (.ret (.ok 0)) h ∧
      Exits asciiBuiltins {} bareEnvironment (.ok 0) h := by
  have hplay : Prog.play (Cloud.perform small) (workerMain small asciiBuiltins {} bareEnvironment 1)
      Cloud.empty answering = some (.ret (.ok 0), _, _) := rfl
  have hrun := Prog.play_steps Cloud.answers_of_perform hplay []
  exact ⟨_, hrun, worker_exits hrun⟩

end Surroundings

end PixelForge
