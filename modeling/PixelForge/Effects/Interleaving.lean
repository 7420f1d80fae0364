import Mathlib.Logic.Function.Basic
import Mathlib.Logic.Relation
import PixelForge.Effects.Program

/-! # Programs interleaved over a shared state

A `Machine` has any number of processes, each with a program, and one shared state. A step is one
process starting, one process having one request answered, one process crashing, or a move of the
surroundings. The log of a `Snapshot` keeps every answered request with the state it found.

* `Machine.Reach M G c₀ c`: `c` is reached from `c₀` by steps whose new log entries all satisfy
  the guard `G` (`fun _ _ => True` for all runs).
* `Discipline M`: for each process, what it may ask on account of its own history, with the proof
  that its program keeps to it. A process only knows its own history, so the others cannot break
  this: `Reach.obeys`.
* `Reach.invariant`: the induction over runs for a property of the shared state and the log, where
  each request is known to be permitted.
-/
set_option autoImplicit false

namespace PixelForge.Effects

/-- One answered request: who asked, the state it found, the choice of the surroundings, and the
answer. -/
structure Entry (Proc Req Choice σ : Type) (Resp : Req → Type) where
  who : Proc
  before : σ
  req : Req
  choice : Choice
  resp : Resp req

/-- Where a process is. -/
inductive Thread (Req : Type) (Resp : Req → Type) (α : Type)
  | idle
  | running (p : Prog Req Resp α)
  | crashed

/-- Processes with their programs, and a shared state that answers requests. -/
structure Machine (Proc Req Choice Move σ α : Type) (Resp : Req → Type) where
  prog : Proc → Prog Req Resp α
  canStart : σ → Proc → Bool
  perform : σ → (q : Req) → Choice → Option (Resp q × σ)
  ambient : σ → Move → Option σ

/-- What happens in one step. -/
inductive Label (Proc Choice Move : Type)
  | start (i : Proc)
  | act (i : Proc) (ch : Choice)
  | crash (i : Proc)
  | ambient (m : Move)

/-- The process that takes the step. -/
def stepper {Proc Choice Move : Type} : Label Proc Choice Move → Option Proc
  | .start i => some i
  | .act i _ => some i
  | .crash i => some i
  | .ambient _ => none

structure Snapshot (Proc Req Choice σ α : Type) (Resp : Req → Type) where
  state : σ
  thread : Proc → Thread Req Resp α
  log : List (Entry Proc Req Choice σ Resp)

variable {Proc Req Choice Move σ α : Type} {Resp : Req → Type}

/-- What the process has returned, if it has. -/
def Snapshot.result (c : Snapshot Proc Req Choice σ α Resp) (i : Proc) : Option α :=
  match c.thread i with
  | .running (.ret a) => some a
  | _ => none

theorem Snapshot.result_eq_some {c : Snapshot Proc Req Choice σ α Resp} {i : Proc} {a : α} :
    c.result i = some a ↔ c.thread i = .running (.ret a) := by
  unfold result
  constructor
  · intro h
    split at h
    · rename_i hi
      rw [hi, Option.some.inj h]
    · cases h
  · intro h
    rw [h]

/-- Whether the process waits for an answer. -/
def Snapshot.waits (c : Snapshot Proc Req Choice σ α Resp) (i : Proc) : Bool :=
  match c.thread i with
  | .running (.call _ _) => true
  | _ => false

theorem Snapshot.waits_of_running {c : Snapshot Proc Req Choice σ α Resp} {i : Proc} {q : Req}
    {k : Resp q → Prog Req Resp α} (h : c.thread i = .running (.call q k)) : c.waits i = true := by
  rw [waits, h]

variable [DecidableEq Proc]

/-- The requests of one process with their answers, latest first. -/
def history (i : Proc) (log : List (Entry Proc Req Choice σ Resp)) : List (Event Req Resp) :=
  (log.filter fun e => e.who = i).map fun e => ⟨e.req, e.resp⟩

@[simp] theorem history_nil (i : Proc) :
    history i ([] : List (Entry Proc Req Choice σ Resp)) = [] := rfl

theorem history_cons_self (e : Entry Proc Req Choice σ Resp)
    (log : List (Entry Proc Req Choice σ Resp)) :
    history e.who (e :: log) = ⟨e.req, e.resp⟩ :: history e.who log := by
  simp [history]

theorem history_cons_ne {i : Proc} {e : Entry Proc Req Choice σ Resp} (h : e.who ≠ i)
    (log : List (Entry Proc Req Choice σ Resp)) : history i (e :: log) = history i log := by
  simp [history, h]

theorem history_append (i : Proc) (log log' : List (Entry Proc Req Choice σ Resp)) :
    history i (log ++ log') = history i log ++ history i log' := by
  rw [history, List.filter_append, List.map_append]
  rfl

theorem mem_history {i : Proc} {log : List (Entry Proc Req Choice σ Resp)} {v : Event Req Resp} :
    v ∈ history i log ↔ ∃ e ∈ log, e.who = i ∧ (⟨e.req, e.resp⟩ : Event Req Resp) = v := by
  simp [history, and_assoc]

/-- Where an event of the history stands in the log. -/
theorem split_of_history {i : Proc} {log : List (Entry Proc Req Choice σ Resp)} {v : Event Req Resp}
    {after before : List (Event Req Resp)} (h : history i log = after ++ v :: before) :
    ∃ later e earlier, log = later ++ e :: earlier ∧ e.who = i ∧
      (⟨e.req, e.resp⟩ : Event Req Resp) = v ∧ history i earlier = before := by
  induction log generalizing after with
  | nil => exact absurd h (by simp)
  | cons e log ih =>
    by_cases he : e.who = i
    · subst he
      rw [history_cons_self] at h
      cases after with
      | nil =>
        obtain ⟨hv, hbefore⟩ := List.cons.inj h
        exact ⟨[], e, log, rfl, rfl, hv, hbefore⟩
      | cons w after =>
        obtain ⟨later, e', earlier, rfl, hrest⟩ := ih (List.cons.inj h).2
        exact ⟨e :: later, e', earlier, rfl, hrest⟩
    · rw [history_cons_ne he] at h
      obtain ⟨later, e', earlier, rfl, hrest⟩ := ih h
      exact ⟨e :: later, e', earlier, rfl, hrest⟩

/-! ## Which process was there first -/

omit [DecidableEq Proc] in
/-- Whatever `i` has asked, it was answered before anything that `j` has asked; the list is who has
asked, latest first. -/
def Precedes (i j : Proc) (whos : List Proc) : Prop :=
  ∃ later before, whos = later ++ before ∧ i ∉ later ∧ j ∉ before

section Order

variable {i j : Proc} {whos whos' : List Proc}

omit [DecidableEq Proc] in
theorem Precedes.sublist (h : Precedes i j whos) (hs : whos'.Sublist whos) : Precedes i j whos' := by
  obtain ⟨later, before, rfl, hi, hj⟩ := h
  obtain ⟨later', before', rfl, hlater, hbefore⟩ := List.sublist_append_iff.mp hs
  exact ⟨later', before', rfl, fun hmem => hi (hlater.subset hmem), fun hmem => hj (hbefore.subset hmem)⟩

omit [DecidableEq Proc] in
/-- What `i` has been answered is in the log below each entry of `j`. -/
theorem Precedes.mem_earlier {log later earlier : List (Entry Proc Req Choice σ Resp)}
    {e e' : Entry Proc Req Choice σ Resp} (h : Precedes i j (log.map Entry.who))
    (hlog : log = later ++ e :: earlier) (he : e.who = j) (hmem : e' ∈ log) (he' : e'.who = i) :
    e' ∈ earlier := by
  obtain ⟨recent, old, hwhos, hi, hj⟩ := h
  rw [hlog, List.map_append, List.map_cons, he] at hwhos
  obtain ⟨t, rfl, hrest⟩ | ⟨t, -, rfl⟩ := List.append_eq_append_iff.mp hwhos
  · cases t with
    | nil =>
      rw [List.nil_append] at hrest
      exact absurd (hrest ▸ List.mem_cons_self) hj
    | cons who t =>
      obtain ⟨rfl, -⟩ := List.cons.inj hrest
      rw [hlog] at hmem
      obtain hmem | hmem := List.mem_append.mp hmem
      · exact absurd (List.mem_append_left _ (he' ▸ List.mem_map_of_mem hmem)) hi
      · obtain rfl | hmem := List.mem_cons.mp hmem
        · exact absurd (List.mem_append_right _ (he'.symm.trans he ▸ List.mem_cons_self)) hi
        · exact hmem
  · exact absurd (List.mem_append_right _ List.mem_cons_self) hj

end Order

namespace Machine

variable (M : Machine Proc Req Choice Move σ α Resp)

/-- Nothing has happened yet. -/
def initial (s : σ) : Snapshot Proc Req Choice σ α Resp := ⟨s, fun _ => .idle, []⟩

/-- One step, when it is possible. A process that has returned does not crash any more. -/
def step (c : Snapshot Proc Req Choice σ α Resp) :
    Label Proc Choice Move → Option (Snapshot Proc Req Choice σ α Resp)
  | .start i =>
    match c.thread i with
    | .idle =>
      if M.canStart c.state i then
        some { c with thread := Function.update c.thread i (.running (M.prog i)) }
      else none
    | _ => none
  | .act i ch =>
    match c.thread i with
    | .running (.call q k) =>
      (M.perform c.state q ch).map fun x =>
        ⟨x.2, Function.update c.thread i (.running (k x.1)), ⟨i, c.state, q, ch, x.1⟩ :: c.log⟩
    | _ => none
  | .crash i =>
    match c.thread i with
    | .running (.call _ _) => some { c with thread := Function.update c.thread i .crashed }
    | _ => none
  | .ambient m => (M.ambient c.state m).map fun s => { c with state := s }

/-- A condition on the log before a request is answered and on its entry. -/
abbrev Guard (Proc Req Choice σ : Type) (Resp : Req → Type) : Type :=
  List (Entry Proc Req Choice σ Resp) → Entry Proc Req Choice σ Resp → Prop

/-- Every run. -/
abbrev always : Guard Proc Req Choice σ Resp := fun _ _ => True

/-- The configurations that runs under the guard `G` reach from `c₀`. -/
inductive Reach (G : Guard Proc Req Choice σ Resp) (c₀ : Snapshot Proc Req Choice σ α Resp) :
    Snapshot Proc Req Choice σ α Resp → Prop
  | refl : Reach G c₀ c₀
  | next {c c' : Snapshot Proc Req Choice σ α Resp} {l : Label Proc Choice Move}
      (h : Reach G c₀ c) (hs : M.step c l = some c') (hG : ∀ e, c'.log = e :: c.log → G c.log e) :
      Reach G c₀ c'

/-- Whether the entry that the step from `c` to `c'` logged, if any, satisfies `G`. -/
def admits (G : Guard Proc Req Choice σ Resp) [∀ log e, Decidable (G log e)]
    (c c' : Snapshot Proc Req Choice σ α Resp) : Bool :=
  match c'.log with
  | [] => true
  | e :: rest => rest.length != c.log.length || decide (G c.log e)

/-- A whole list of labels, one after another, as long as `G` admits the steps. -/
def run (G : Guard Proc Req Choice σ Resp) [∀ log e, Decidable (G log e)]
    (c : Snapshot Proc Req Choice σ α Resp) :
    List (Label Proc Choice Move) → Option (Snapshot Proc Req Choice σ α Resp)
  | [] => some c
  | l :: ls => (M.step c l).bind fun c' => if admits G c c' then run G c' ls else none

variable {M}

/-- The labels by which one process starts and has a request answered for each choice. -/
def script (i : Proc) (chs : List Choice) : List (Label Proc Choice Move) :=
  .start i :: chs.map (.act i)

/-- The configuration the labels lead to, as far as they can be run. -/
def played (c : Snapshot Proc Req Choice σ α Resp) (ls : List (Label Proc Choice Move)) :
    Snapshot Proc Req Choice σ α Resp := (M.run always c ls).getD c

/-- Whether `G` admits every entry of the log. -/
def lawful (G : Guard Proc Req Choice σ Resp) [∀ log e, Decidable (G log e)] :
    List (Entry Proc Req Choice σ Resp) → Bool
  | [] => true
  | e :: log => decide (G log e) && lawful G log

/-- Everything a step can be. -/
theorem step_cases {c c' : Snapshot Proc Req Choice σ α Resp} {l : Label Proc Choice Move}
    (h : M.step c l = some c') :
    (∃ i, l = .start i ∧ c.thread i = .idle ∧ M.canStart c.state i = true ∧
      c' = { c with thread := Function.update c.thread i (.running (M.prog i)) }) ∨
    (∃ i ch q k r s', l = .act i ch ∧ c.thread i = .running (.call q k) ∧
      M.perform c.state q ch = some (r, s') ∧
      c' = ⟨s', Function.update c.thread i (.running (k r)), ⟨i, c.state, q, ch, r⟩ :: c.log⟩) ∨
    (∃ i q k, l = .crash i ∧ c.thread i = .running (.call q k) ∧
      c' = { c with thread := Function.update c.thread i .crashed }) ∨
    (∃ m s', l = .ambient m ∧ M.ambient c.state m = some s' ∧ c' = { c with state := s' }) := by
  cases l with
  | start i =>
    refine .inl ⟨i, rfl, ?_⟩
    simp only [step] at h
    split at h
    · rename_i hi
      split at h
      · rename_i hs
        exact ⟨hi, hs, (Option.some.inj h).symm⟩
      · cases h
    · cases h
  | act i ch =>
    refine .inr (.inl ⟨i, ch, ?_⟩)
    simp only [step] at h
    split at h
    · rename_i q k hi
      obtain ⟨⟨r, s'⟩, hp, rfl⟩ := Option.map_eq_some_iff.mp h
      exact ⟨q, k, r, s', rfl, hi, hp, rfl⟩
    · cases h
  | crash i =>
    refine .inr (.inr (.inl ⟨i, ?_⟩))
    simp only [step] at h
    split at h
    · rename_i q k hi
      exact ⟨q, k, rfl, hi, (Option.some.inj h).symm⟩
    · cases h
  | ambient m =>
    refine .inr (.inr (.inr ⟨m, ?_⟩))
    obtain ⟨s', hm, rfl⟩ := Option.map_eq_some_iff.mp h
    exact ⟨s', rfl, hm, rfl⟩

theorem log_of_act {c c' : Snapshot Proc Req Choice σ α Resp} {i : Proc} {ch : Choice}
    (h : M.step c (.act i ch) = some c') :
    ∃ e : Entry Proc Req Choice σ Resp, e.who = i ∧ c'.log = e :: c.log := by
  obtain ⟨j, hl, -⟩ | ⟨j, ch', q, k, r, s', hl, -, -, rfl⟩ | ⟨j, q, k, hl, -⟩ | ⟨m, s', hl, -⟩ :=
    step_cases h
  · cases hl
  · cases hl
    exact ⟨_, rfl, rfl⟩
  · cases hl
  · cases hl

theorem thread_of_step {c c' : Snapshot Proc Req Choice σ α Resp} {l : Label Proc Choice Move}
    (h : M.step c l = some c') {i : Proc} (hi : stepper l ≠ some i) : c'.thread i = c.thread i := by
  obtain ⟨j, rfl, -, -, rfl⟩ | ⟨j, ch, q, k, r, s', rfl, -, -, rfl⟩ | ⟨j, q, k, rfl, -, rfl⟩ |
    ⟨m, s', rfl, -, rfl⟩ := step_cases h
  · exact Function.update_of_ne (fun hij => hi (by rw [hij, stepper])) _ _
  · exact Function.update_of_ne (fun hij => hi (by rw [hij, stepper])) _ _
  · exact Function.update_of_ne (fun hij => hi (by rw [hij, stepper])) _ _
  · rfl

section Run

variable {G : Guard Proc Req Choice σ Resp} [∀ log e, Decidable (G log e)]
  {c c' : Snapshot Proc Req Choice σ α Resp} {ls : List (Label Proc Choice Move)}

theorem run_cons {l : Label Proc Choice Move} (h : M.run G c (l :: ls) = some c') :
    ∃ c₁, M.step c l = some c₁ ∧ admits G c c₁ = true ∧ M.run G c₁ ls = some c' := by
  obtain ⟨c₁, h₁, h₂⟩ := Option.bind_eq_some_iff.mp h
  split at h₂
  · rename_i ha
    exact ⟨c₁, h₁, ha, h₂⟩
  · cases h₂

omit [DecidableEq Proc] in
theorem guard_of_admits (ha : admits G c c' = true)
    {e : Entry Proc Req Choice σ Resp} (he : c'.log = e :: c.log) : G c.log e := by
  simpa [admits, he] using ha

theorem thread_of_run (h : M.run G c ls = some c') {i : Proc}
    (hi : ∀ l ∈ ls, stepper l ≠ some i) : c'.thread i = c.thread i := by
  induction ls generalizing c with
  | nil => rw [Option.some.inj h]
  | cons l ls ih =>
    obtain ⟨c₁, h₁, -, h₂⟩ := run_cons h
    rw [ih h₂ fun l' hl' => hi l' (List.mem_cons_of_mem _ hl'),
      thread_of_step h₁ (hi l List.mem_cons_self)]

theorem played_thread {c : Snapshot Proc Req Choice σ α Resp} {i : Proc}
    (hi : ∀ l ∈ ls, stepper l ≠ some i) : (M.played c ls).thread i = c.thread i := by
  unfold played
  cases h : M.run always c ls with
  | none => rfl
  | some c' => exact thread_of_run h hi

theorem run_append {c₁ : Snapshot Proc Req Choice σ α Resp} (h : M.run G c ls = some c₁)
    (ls' : List (Label Proc Choice Move)) : M.run G c (ls ++ ls') = M.run G c₁ ls' := by
  induction ls generalizing c with
  | nil => rw [Option.some.inj h, List.nil_append]
  | cons l ls ih =>
    obtain ⟨c₂, h₁, ha, h₂⟩ := run_cons h
    rw [List.cons_append, run, h₁, Option.bind_some, if_pos ha]
    exact ih h₂

theorem run_played (h : (M.run always c ls).isSome = true) :
    M.run always c ls = some (M.played c ls) := by
  obtain ⟨c', hc'⟩ := Option.isSome_iff_exists.mp h
  rw [played, hc', Option.getD_some]

theorem run_step {l : Label Proc Choice Move} {c₁ : Snapshot Proc Req Choice σ α Resp}
    (h : M.step c l = some c₁) : M.run always c (l :: ls) = M.run always c₁ ls := by
  have ha : admits always c c₁ = true := by
    unfold admits
    split <;> simp
  rw [run, h, Option.bind_some, if_pos ha]

/-- What a run adds to the log is by processes that it steps. -/
theorem log_of_run (h : M.run G c ls = some c') :
    ∃ t, c'.log = t ++ c.log ∧ ∀ e ∈ t, ∃ l ∈ ls, stepper l = some e.who := by
  induction ls generalizing c with
  | nil => exact ⟨[], by rw [Option.some.inj h, List.nil_append], fun _ he => absurd he List.not_mem_nil⟩
  | cons l ls ih =>
    obtain ⟨c₁, h₁, -, h₂⟩ := run_cons h
    obtain ⟨t, hlog, hwho⟩ := ih h₂
    have hlater : ∀ e ∈ t, ∃ l' ∈ l :: ls, stepper l' = some e.who := fun e he =>
      (hwho e he).imp fun _ hl' => ⟨List.mem_cons_of_mem _ hl'.1, hl'.2⟩
    obtain ⟨j, rfl, -, -, rfl⟩ | ⟨j, ch, q, k, r, s', rfl, -, -, rfl⟩ | ⟨j, q, k, rfl, -, rfl⟩ |
      ⟨m, s', rfl, -, rfl⟩ := step_cases h₁
    · exact ⟨t, hlog, hlater⟩
    · refine ⟨t ++ [⟨j, c.state, q, ch, r⟩], by simpa using hlog, fun e he => ?_⟩
      obtain he | he := List.mem_append.mp he
      · exact hlater e he
      · exact ⟨_, List.mem_cons_self, by rw [List.mem_singleton.mp he, stepper]⟩
    · exact ⟨t, hlog, hlater⟩
    · exact ⟨t, hlog, hlater⟩

theorem alone_of_run (h : M.run G c ls = some c') {i : Proc} (hi : ∀ l ∈ ls, stepper l = some i) :
    Relation.ReflTransGen (fun a b => ∃ l, M.step a l = some b ∧ stepper l = some i) c c' := by
  induction ls generalizing c with
  | nil => rw [Option.some.inj h]
  | cons l ls ih =>
    obtain ⟨c₁, h₁, -, h₂⟩ := run_cons h
    exact .head ⟨l, h₁, hi l List.mem_cons_self⟩
      (ih h₂ fun l' hl' => hi l' (List.mem_cons_of_mem _ hl'))

theorem played_alone {c : Snapshot Proc Req Choice σ α Resp} {i : Proc}
    (hi : ∀ l ∈ ls, stepper l = some i) :
    Relation.ReflTransGen (fun a b => ∃ l, M.step a l = some b ∧ stepper l = some i) c
      (M.played c ls) := by
  unfold played
  cases h : M.run always c ls with
  | none => exact .refl
  | some c' => exact alone_of_run h hi

end Run

/-- Executing a list of labels under the guard reaches its last configuration. -/
theorem Reach.of_run {G : Guard Proc Req Choice σ Resp} [∀ log e, Decidable (G log e)]
    {c₀ c c' : Snapshot Proc Req Choice σ α Resp} (hc : M.Reach G c₀ c)
    (ls : List (Label Proc Choice Move)) (h : M.run G c ls = some c') : M.Reach G c₀ c' := by
  induction ls generalizing c with
  | nil => exact Option.some.inj h ▸ hc
  | cons l ls ih =>
    obtain ⟨c₁, h₁, ha, h₂⟩ := run_cons h
    exact ih (hc.next h₁ fun _ he => guard_of_admits ha he) h₂

theorem Reach.played {c₀ c : Snapshot Proc Req Choice σ α Resp} (hc : M.Reach always c₀ c)
    (ls : List (Label Proc Choice Move)) : M.Reach always c₀ (M.played c ls) := by
  unfold Machine.played
  cases h : M.run always c ls with
  | none => exact hc
  | some c' => exact hc.of_run ls h

/-- A run whose log the guard admits is a run under the guard. -/
theorem Reach.lawful {G : Guard Proc Req Choice σ Resp} [∀ log e, Decidable (G log e)] {s₀ : σ}
    {c : Snapshot Proc Req Choice σ α Resp} (h : M.Reach always (initial s₀) c)
    (hlog : lawful G c.log = true) : M.Reach G (initial s₀) c := by
  induction h with
  | refl => exact .refl
  | next _ hs _ ih =>
    obtain ⟨j, -, -, -, rfl⟩ | ⟨j, ch, q, k, r, s', -, -, -, rfl⟩ | ⟨j, q, k, -, -, rfl⟩ |
      ⟨m, s', -, -, rfl⟩ := step_cases hs
    · exact (ih hlog).next hs fun e he => absurd (congrArg List.length he) (by simp)
    · obtain ⟨hG, hrest⟩ := Bool.and_eq_true_iff.mp hlog
      refine (ih hrest).next hs fun e he => ?_
      obtain rfl := (List.cons.inj he).1
      exact of_decide_eq_true hG
    · exact (ih hlog).next hs fun e he => absurd (congrArg List.length he) (by simp)
    · exact (ih hlog).next hs fun e he => absurd (congrArg List.length he) (by simp)

theorem Reach.trans {G : Guard Proc Req Choice σ Resp} {c₀ c c' : Snapshot Proc Req Choice σ α Resp}
    (h : M.Reach G c₀ c) (h' : M.Reach G c c') : M.Reach G c₀ c' := by
  induction h' with
  | refl => exact h
  | next _ hs hG ih => exact ih.next hs hG

theorem Reach.returned {G : Guard Proc Req Choice σ Resp}
    {c c' : Snapshot Proc Req Choice σ α Resp} (h : M.Reach G c c') {i : Proc} {a : α}
    (hi : c.thread i = .running (.ret a)) : c'.thread i = .running (.ret a) := by
  induction h with
  | refl => exact hi
  | next _ hs _ ih =>
    obtain ⟨j, -, hj, -, rfl⟩ | ⟨j, ch, q, k, r, s', -, hj, -, rfl⟩ | ⟨j, q, k, -, hj, rfl⟩ |
      ⟨m, s', -, -, rfl⟩ := step_cases hs
    · have hij : i ≠ j := by
        rintro rfl
        rw [ih] at hj
        cases hj
      simpa only [Function.update_of_ne hij] using ih
    · have hij : i ≠ j := by
        rintro rfl
        rw [ih] at hj
        cases hj
      simpa only [Function.update_of_ne hij] using ih
    · have hij : i ≠ j := by
        rintro rfl
        rw [ih] at hj
        cases hj
      simpa only [Function.update_of_ne hij] using ih
    · exact ih

/-! ## Disciplines -/

/-- What each process may ask on account of its own history (`may`), which answers there are
(`answers`) and what holds when it returns (`post`), with the proof that the programs keep to
it. -/
structure Discipline (M : Machine Proc Req Choice Move σ α Resp) where
  may : Proc → List (Event Req Resp) → Req → Prop
  answers : (q : Req) → Resp q → Prop
  post : Proc → α → List (Event Req Resp) → Prop
  keeps : ∀ i, Prog.wp (recorder (may i) answers) (M.prog i) (post i) []
  answered : ∀ s q ch r s', M.perform s q ch = some (r, s') → answers q r

variable {G : Guard Proc Req Choice σ Resp} {s₀ : σ} {c : Snapshot Proc Req Choice σ α Resp}

/-- Where a process is, its program has come to by its own history. -/
theorem Reach.steps {answers : (q : Req) → Resp q → Prop}
    (hans : ∀ s q ch r s', M.perform s q ch = some (r, s') → answers q r)
    {may : List (Event Req Resp) → Req → Prop} (h : M.Reach G (initial s₀) c) (i : Proc) :
    (c.thread i = .idle → history i c.log = []) ∧
      ∀ p, c.thread i = .running p →
        Steps (recorder may answers) (M.prog i) [] p (history i c.log) := by
  induction h with
  | refl => exact ⟨fun _ => rfl, fun p hp => by cases hp⟩
  | next _ hs _ ih =>
    obtain ⟨j, -, hj, -, rfl⟩ | ⟨j, ch, q, k, r, s', -, hj, hp, rfl⟩ | ⟨j, q, k, -, hj, rfl⟩ |
      ⟨m, s', -, hm, rfl⟩ := step_cases hs
    · by_cases hij : i = j
      · subst hij
        refine ⟨fun hi => by simp at hi, fun p hr => ?_⟩
        simp only [Function.update_self, Thread.running.injEq] at hr
        subst hr
        simpa only [ih.1 hj] using Steps.refl (M.prog i) []
      · simpa only [Function.update_of_ne hij] using ih
    · by_cases hij : i = j
      · subst hij
        refine ⟨fun hi => by simp at hi, fun p hr => ?_⟩
        simp only [Function.update_self, Thread.running.injEq] at hr
        subst hr
        rw [history_cons_self ⟨i, _, q, ch, r⟩]
        exact (ih.2 _ hj).snoc ⟨hans _ _ _ _ _ hp, rfl⟩
      · rw [history_cons_ne (Ne.symm hij)]
        simpa only [Function.update_of_ne hij] using ih
    · by_cases hij : i = j
      · subst hij
        exact ⟨fun hi => by simp at hi, fun p hp => by simp at hp⟩
      · simpa only [Function.update_of_ne hij] using ih
    · exact ih

theorem Reach.history_of_idle (h : M.Reach G (initial s₀) c) {i : Proc} (hi : c.thread i = .idle) :
    history i c.log = [] := by
  have hsteps : (c.thread i = .idle → history i c.log = []) ∧ ∀ p, c.thread i = .running p →
      Steps (recorder (fun _ _ => True) fun _ _ => True) (M.prog i) [] p (history i c.log) :=
    h.steps (fun _ _ _ _ _ _ => trivial) i
  exact hsteps.1 hi

/-- A process that has not started has no history; one that is running keeps to its discipline
from its own history on. -/
theorem Reach.obeys (D : Discipline M) (h : M.Reach G (initial s₀) c) (i : Proc) :
    (c.thread i = .idle → history i c.log = []) ∧
      ∀ p, c.thread i = .running p →
        Prog.wp (recorder (D.may i) D.answers) p (D.post i) (history i c.log) :=
  have hsteps := h.steps D.answered i
  ⟨hsteps.1, fun p hp => (hsteps.2 p hp).wp (D.keeps i)⟩

theorem Reach.may (D : Discipline M) (h : M.Reach G (initial s₀) c) {i : Proc} {q : Req}
    {k : Resp q → Prog Req Resp α} (hi : c.thread i = .running (.call q k)) :
    D.may i (history i c.log) q := ((h.obeys D i).2 _ hi).1

theorem Reach.post (D : Discipline M) (h : M.Reach G (initial s₀) c) {i : Proc} {a : α}
    (hi : c.thread i = .running (.ret a)) : D.post i a (history i c.log) := (h.obeys D i).2 _ hi

/-- Every entry of the log was permitted by the history before it, and is a performed request. -/
theorem Reach.entry (D : Discipline M) (h : M.Reach G (initial s₀) c)
    {later earlier : List (Entry Proc Req Choice σ Resp)} {e : Entry Proc Req Choice σ Resp}
    (he : c.log = later ++ e :: earlier) :
    D.may e.who (history e.who earlier) e.req ∧ G earlier e ∧
      ∃ s', M.perform e.before e.req e.choice = some (e.resp, s') := by
  induction h generalizing later with
  | refl => exact absurd he (by simp [initial])
  | next hr hs hG ih =>
    obtain ⟨j, -, -, -, rfl⟩ | ⟨j, ch, q, k, r, s', -, hj, hp, rfl⟩ | ⟨j, q, k, -, -, rfl⟩ |
      ⟨m, s', -, -, rfl⟩ := step_cases hs
    · exact ih he
    · cases later with
      | nil =>
        obtain ⟨rfl, rfl⟩ := List.cons.inj he
        exact ⟨hr.may D hj, hG _ rfl, s', hp⟩
      | cons e' later => exact ih (List.cons.inj he).2
    · exact ih he
    · exact ih he

/-- **Induction over runs** for a property of the shared state and the log: it holds initially,
the surroundings preserve it, and every answered request does. -/
theorem Reach.invariant {P : σ → List (Entry Proc Req Choice σ Resp) → Prop} (hinit : P s₀ [])
    (hamb : ∀ s log m s', P s log → M.ambient s m = some s' → P s' log)
    (hact : ∀ (c : Snapshot Proc Req Choice σ α Resp) i q k ch r s', M.Reach G (initial s₀) c →
      P c.state c.log → c.thread i = .running (.call q k) →
      M.perform c.state q ch = some (r, s') → G c.log ⟨i, c.state, q, ch, r⟩ →
      P s' (⟨i, c.state, q, ch, r⟩ :: c.log))
    (h : M.Reach G (initial s₀) c) : P c.state c.log := by
  induction h with
  | refl => exact hinit
  | next hr hs hG ih =>
    obtain ⟨j, -, -, -, rfl⟩ | ⟨j, ch, q, k, r, s', -, hj, hp, rfl⟩ | ⟨j, q, k, -, -, rfl⟩ |
      ⟨m, s', -, hm, rfl⟩ := step_cases hs
    · exact ih
    · exact hact _ _ _ _ _ _ _ hr ih hj hp (hG _ rfl)
    · exact ih
    · exact hamb _ _ _ _ ih hm

/-- What held of the state when a process started, and every request and move keeps, holds of the
process ever after. -/
theorem Reach.since_start {F : Proc → σ → Prop}
    (hstart : ∀ s i, M.canStart s i = true → F i s)
    (hamb : ∀ i s m s', F i s → M.ambient s m = some s' → F i s')
    (hact : ∀ i s q ch r s', F i s → M.perform s q ch = some (r, s') → F i s')
    (h : M.Reach G (initial s₀) c) (i : Proc) (hi : c.thread i ≠ .idle) : F i c.state := by
  induction h with
  | refl => exact absurd rfl hi
  | next _ hs _ ih =>
    obtain ⟨j, -, -, hj, rfl⟩ | ⟨j, ch, q, k, r, s', -, hj, hp, rfl⟩ | ⟨j, q, k, -, hj, rfl⟩ |
      ⟨m, s', -, hm, rfl⟩ := step_cases hs
    · by_cases hij : i = j
      · exact hstart _ _ (hij ▸ hj)
      · exact ih (by simpa only [Function.update_of_ne hij] using hi)
    · refine hact _ _ _ _ _ _ (ih fun hid => ?_) hp
      by_cases hij : i = j
      · subst hij
        rw [hj] at hid
        cases hid
      · exact hi (by simpa only [Function.update_of_ne hij] using hid)
    · by_cases hij : i = j
      · subst hij
        exact ih (by simp [hj])
      · exact ih (by simpa only [Function.update_of_ne hij] using hi)
    · exact hamb _ _ _ _ (ih hi) hm

/-! ## Runs from a configuration on -/

/-- A run only adds to the log. -/
theorem Reach.log_suffix {c₁ c₂ : Snapshot Proc Req Choice σ α Resp} (h : M.Reach G c₁ c₂) :
    c₁.log <:+ c₂.log := by
  induction h with
  | refl => exact List.suffix_rfl
  | next _ hs _ ih =>
    obtain ⟨j, -, -, -, rfl⟩ | ⟨j, ch, q, k, r, s', -, -, -, rfl⟩ | ⟨j, q, k, -, -, rfl⟩ |
      ⟨m, s', -, -, rfl⟩ := step_cases hs
    · exact ih
    · exact ih.trans (List.suffix_cons _ _)
    · exact ih
    · exact ih

/-- A process that has returned is not in what a run adds to the log. -/
theorem Reach.log_since_returned {c₁ c₂ : Snapshot Proc Req Choice σ α Resp} (h : M.Reach G c₁ c₂)
    {i : Proc} {a : α} (hi : c₁.thread i = .running (.ret a)) :
    ∃ t, c₂.log = t ++ c₁.log ∧ ∀ e ∈ t, e.who ≠ i := by
  induction h with
  | refl => exact ⟨[], rfl, fun _ he => absurd he List.not_mem_nil⟩
  | next hr hs _ ih =>
    obtain ⟨t, hlog, ht⟩ := ih
    obtain ⟨j, -, -, -, rfl⟩ | ⟨j, ch, q, k, r, s', -, hj, -, rfl⟩ | ⟨j, q, k, -, -, rfl⟩ |
      ⟨m, s', -, -, rfl⟩ := step_cases hs
    · exact ⟨t, hlog, ht⟩
    · refine ⟨_ :: t, congrArg _ hlog, List.forall_mem_cons.mpr ⟨?_, ht⟩⟩
      rintro rfl
      rw [hr.returned hi] at hj
      cases hj
    · exact ⟨t, hlog, ht⟩
    · exact ⟨t, hlog, ht⟩

/-- A process that had returned before another began precedes it. -/
theorem Reach.precedes {c₁ c₂ : Snapshot Proc Req Choice σ α Resp} (h₁ : M.Reach G (initial s₀) c₁)
    (h₂ : M.Reach G c₁ c₂) {i j : Proc} {a : α} (hi : c₁.thread i = .running (.ret a))
    (hj : c₁.thread j = .idle) : Precedes i j (c₂.log.map Entry.who) := by
  obtain ⟨t, hlog, ht⟩ := h₂.log_since_returned hi
  have hnone := h₁.history_of_idle hj
  refine ⟨t.map Entry.who, c₁.log.map Entry.who, by rw [hlog, List.map_append], ?_, ?_⟩
  · rw [List.mem_map]
    rintro ⟨e, he, hwho⟩
    exact ht e he hwho
  · rw [List.mem_map]
    rintro ⟨e, he, rfl⟩
    rw [List.eq_nil_iff_forall_not_mem] at hnone
    exact hnone _ (mem_history.mpr ⟨e, he, rfl, rfl⟩)

/-- Where an entry comes from that was not there in `c₁`. -/
theorem Reach.entry_since {c₁ c₂ : Snapshot Proc Req Choice σ α Resp} (h : M.Reach G c₁ c₂)
    {e : Entry Proc Req Choice σ Resp} (he : e ∈ c₂.log) (hnew : e ∉ c₁.log) :
    ∃ c s', M.Reach G c₁ c ∧ c.state = e.before ∧
      M.perform e.before e.req e.choice = some (e.resp, s') ∧ M.Reach G c c₂ := by
  induction h with
  | refl => exact absurd he hnew
  | @next c₂ c₃ l hr hs hG ih =>
    have hold : e ∈ c₂.log → ∃ c s', M.Reach G c₁ c ∧ c.state = e.before ∧
        M.perform e.before e.req e.choice = some (e.resp, s') ∧ M.Reach G c c₃ := fun hmem => by
      obtain ⟨c, s', hc, hstate, hp, hlater⟩ := ih hmem
      exact ⟨c, s', hc, hstate, hp, hlater.next hs hG⟩
    obtain ⟨j, -, -, -, rfl⟩ | ⟨j, ch, q, k, r, s', -, -, hp, rfl⟩ | ⟨j, q, k, -, -, rfl⟩ |
      ⟨m, s', -, -, rfl⟩ := step_cases hs
    · exact hold he
    · obtain rfl | hmem := List.mem_cons.mp he
      · exact ⟨c₂, s', hr, rfl, hp, Reach.refl.next hs hG⟩
      · exact hold hmem
    · exact hold he
    · exact hold he

end Machine

end PixelForge.Effects
