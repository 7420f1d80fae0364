import Mathlib.Algebra.BigOperators.Fin
import Mathlib.Algebra.Order.BigOperators.Group.Finset
import PixelForge.Effects.Traces
import PixelForge.Formats.Counts

/-! # The accounting of a load run (`_worker`, `run_load`)

`run_load` fills a FIFO queue with the scheduled send times and one stop marker for each thread,
and the threads work it off. A label says which thread does what next: it takes an item, its upload
comes to an end, or it counts the outcome under the lock. The clock, the latencies and the polling
of accepted jobs are left out: none of them changes a count.
-/
set_option autoImplicit false

namespace PixelForge

open Effects

/-! ## One upload -/

/-- A raised exception: the name of its class, and whether `except OSError` catches it. -/
structure RaisedClass where
  typeName : String
  isOSError : Bool
deriving DecidableEq, Repr

/-- A JSON document, as far as `document.get("job_id")` reads it. -/
inductive JsonReply
  | object (jobId : Option String)
  | notObject
deriving DecidableEq, Repr

/-- What the exchange with the server comes to: a response whose body is read, decoded and parsed,
an `HTTPError` whose body is read, or any other exception of `urlopen`. -/
inductive Exchange
  | response (status : ℕ) (document : Except RaisedClass JsonReply)
  | httpError (code : ℕ) (body : Except RaisedClass Unit)
  | failed (e : RaisedClass)
deriving DecidableEq

def postUpload : Exchange → Except RaisedClass (String × Option String)
  | .response status (.ok (.object jobId)) => .ok (toString status, jobId)
  | .response _ (.ok .notObject) => .error ⟨"AttributeError", false⟩
  | .response _ (.error e) => .error e
  | .httpError code (.ok ()) => .ok (toString code, none)
  | .httpError _ (.error e) => .error e
  | .failed e => .error e

/-- The exchange is one that `_worker` counts: an answer whose body can be read, and is a JSON object
when the upload was accepted, or an `OSError`. -/
def Exchange.Counted : Exchange → Prop
  | .response _ (.ok (.object _)) => True
  | .response _ (.ok .notObject) => False
  | .response _ (.error e) => e.isOSError = true
  | .httpError _ (.ok ()) => True
  | .httpError _ (.error e) => e.isOSError = true
  | .failed e => e.isOSError = true

/-! ## Counters -/

/-- The counters of `Results` that `total_requests` reads. -/
structure LoadResults where
  statusCounts : List (String × ℕ)
  errors : List (String × ℕ)

def LoadResults.totalRequests (r : LoadResults) : ℕ :=
  totalCount r.statusCounts + totalCount r.errors

/-- `results.status_counts[status] += 1`. -/
def LoadResults.countStatus (r : LoadResults) (status : String) : LoadResults :=
  { r with statusCounts := bump status r.statusCounts }

/-- `results.errors[type(exc).__name__] += 1`. -/
def LoadResults.countError (r : LoadResults) (typeName : String) : LoadResults :=
  { r with errors := bump typeName r.errors }

theorem LoadResults.totalRequests_countStatus (r : LoadResults) (status : String) :
    (r.countStatus status).totalRequests = r.totalRequests + 1 := by
  show totalCount (bump status r.statusCounts) + totalCount r.errors =
    totalCount r.statusCounts + totalCount r.errors + 1
  rw [totalCount_bump]
  omega

theorem LoadResults.totalRequests_countError (r : LoadResults) (typeName : String) :
    (r.countError typeName).totalRequests = r.totalRequests + 1 := by
  show totalCount r.statusCounts + totalCount (bump typeName r.errors) =
    totalCount r.statusCounts + totalCount r.errors + 1
  rw [totalCount_bump]
  omega

/-! ## The threads -/

/-- Where a `_worker` thread is. -/
inductive Seat (T : Type)
  | getting
  | sending (scheduled : T)
  | countingStatus (status : String)
  | countingError (typeName : String)
  | returned
  | died (e : RaisedClass)

/-- The shared queue and results, where each thread is, and which thread took which send time. -/
structure LoadRun (T : Type) (n : ℕ) where
  queue : List (Option T)
  results : LoadResults
  threads : Fin n → Seat T
  taken : List (Fin n × T)

/-- A thread takes the next item, its `_post_upload` ends, or it counts the outcome. -/
inductive LoadLabel (n : ℕ)
  | get (i : Fin n)
  | posted (i : Fin n) (x : Exchange)
  | counted (i : Fin n)

/-- Where a thread goes on after `_post_upload`: an exception that `except OSError` does not catch
ends it. -/
def afterPost {T : Type} : Except RaisedClass (String × Option String) → Seat T
  | .ok (status, _) => .countingStatus status
  | .error e => if e.isOSError = true then .countingError e.typeName else .died e

namespace LoadRun

variable {T : Type} {n : ℕ}

/-- `run_load`, once the queue is filled and the threads are started. -/
def start (n : ℕ) (tasks : List T) : LoadRun T n :=
  { queue := tasks.map some ++ List.replicate n none
    results := ⟨[], []⟩
    threads := fun _ => .getting
    taken := [] }

/-- The threads, once thread `i` goes on to `seat`. -/
def place (r : LoadRun T n) (i : Fin n) (seat : Seat T) : Fin n → Seat T :=
  Function.update r.threads i seat

/-- One step of a thread. -/
def step (r : LoadRun T n) : LoadLabel n → Option (LoadRun T n)
  | .get i =>
    match r.threads i, r.queue with
    | .getting, none :: queue => some { r with threads := r.place i .returned, queue := queue }
    | .getting, some scheduled :: queue =>
      some { r with
        threads := r.place i (.sending scheduled)
        queue := queue
        taken := r.taken ++ [(i, scheduled)] }
    | _, _ => none
  | .posted i x =>
    match r.threads i with
    | .sending _ => some { r with threads := r.place i (afterPost (postUpload x)) }
    | _ => none
  | .counted i =>
    match r.threads i with
    | .countingStatus status =>
      some { r with threads := r.place i .getting, results := r.results.countStatus status }
    | .countingError typeName =>
      some { r with threads := r.place i .getting, results := r.results.countError typeName }
    | _ => none

/-- Every thread has ended, so `run_load` has joined them. -/
def Returned (r : LoadRun T n) : Prop :=
  ∀ i, r.threads i = .returned ∨ ∃ e, r.threads i = .died e

/-- The steps of the threads, one rule for each. -/
inductive Moves (r : LoadRun T n) : LoadLabel n → LoadRun T n → Prop
  | stop {i : Fin n} {queue : List (Option T)} (hseat : r.threads i = .getting)
      (hqueue : r.queue = none :: queue) :
      Moves r (.get i) { r with threads := r.place i .returned, queue := queue }
  | take {i : Fin n} {scheduled : T} {queue : List (Option T)} (hseat : r.threads i = .getting)
      (hqueue : r.queue = some scheduled :: queue) :
      Moves r (.get i)
        { r with
          threads := r.place i (.sending scheduled)
          queue := queue
          taken := r.taken ++ [(i, scheduled)] }
  | posted {i : Fin n} {scheduled : T} (x : Exchange) (hseat : r.threads i = .sending scheduled) :
      Moves r (.posted i x) { r with threads := r.place i (afterPost (postUpload x)) }
  | counted {i : Fin n} {results : LoadResults}
      (hseat : (∃ status, r.threads i = .countingStatus status) ∨
        ∃ typeName, r.threads i = .countingError typeName)
      (htotal : results.totalRequests = r.results.totalRequests + 1) :
      Moves r (.counted i) { r with threads := r.place i .getting, results := results }

variable {r r' : LoadRun T n} {l : LoadLabel n} {ls : List (LoadLabel n)} {tasks : List T}

theorem moves_of_step (h : r.step l = some r') : Moves r l r' := by
  cases l with
  | get i =>
    simp only [step] at h
    split at h
    · next hseat hqueue =>
      rw [← Option.some.inj h]
      exact .stop hseat hqueue
    · next hseat hqueue =>
      rw [← Option.some.inj h]
      exact .take hseat hqueue
    · exact absurd h (by simp)
  | posted i x =>
    simp only [step] at h
    split at h
    · next hseat =>
      rw [← Option.some.inj h]
      exact .posted x hseat
    · exact absurd h (by simp)
  | counted i =>
    simp only [step] at h
    split at h
    · next status hseat =>
      rw [← Option.some.inj h]
      exact .counted (.inl ⟨status, hseat⟩) (r.results.totalRequests_countStatus status)
    · next typeName hseat =>
      rw [← Option.some.inj h]
      exact .counted (.inr ⟨typeName, hseat⟩) (r.results.totalRequests_countError typeName)
    · exact absurd h (by simp)

/-! ## Threads in one place -/

/-- The sum of a weight of their places over the threads. -/
def weigh (w : Seat T → ℕ) (threads : Fin n → Seat T) : ℕ := ∑ i, w (threads i)

theorem weigh_place (w : Seat T → ℕ) {i : Fin n} {old : Seat T} (hseat : r.threads i = old)
    (new : Seat T) : weigh w (r.place i new) + w old = weigh w r.threads + w new := by
  have hrest : ∑ j ∈ Finset.univ.erase i, w (r.place i new j) =
      ∑ j ∈ Finset.univ.erase i, w (r.threads j) := by
    refine Finset.sum_congr rfl fun j hj => ?_
    rw [place, Function.update_of_ne (Finset.ne_of_mem_erase hj)]
  have hself : r.place i new i = new := Function.update_self ..
  unfold weigh
  rw [← Finset.add_sum_erase _ _ (Finset.mem_univ i),
    ← Finset.add_sum_erase _ (fun j => w (r.threads j)) (Finset.mem_univ i), hrest, hself, hseat]
  omega

/-- Threads that have returned. -/
def returnedSeat : Seat T → ℕ
  | .returned => 1
  | _ => 0

/-- Threads with an upload that is taken and not yet counted. -/
def busySeat : Seat T → ℕ
  | .sending _ => 1
  | .countingStatus _ => 1
  | .countingError _ => 1
  | _ => 0

/-- Threads that an exception has ended. -/
def diedSeat : Seat T → ℕ
  | .died _ => 1
  | _ => 0

/-- Only an exchange that `_worker` does not count ends a thread. -/
theorem seats_afterPost (x : Exchange) :
    returnedSeat (afterPost (T := T) (postUpload x)) = 0 ∧
      (x.Counted ∧ busySeat (afterPost (T := T) (postUpload x)) = 1 ∧
          diedSeat (afterPost (T := T) (postUpload x)) = 0 ∨
        ¬ x.Counted ∧ busySeat (afterPost (T := T) (postUpload x)) = 0 ∧
          diedSeat (afterPost (T := T) (postUpload x)) = 1) := by
  have herror : ∀ e : RaisedClass,
      afterPost (T := T) (.error e) = if e.isOSError = true then .countingError e.typeName
        else .died e := fun _ => rfl
  cases x with
  | response status document =>
    cases document with
    | ok reply => cases reply <;> simp [postUpload, afterPost, Exchange.Counted, returnedSeat,
        busySeat, diedSeat]
    | error e =>
      by_cases he : e.isOSError = true <;>
        simp [postUpload, herror, he, Exchange.Counted, returnedSeat, busySeat, diedSeat]
  | httpError code body =>
    cases body with
    | ok u => simp [postUpload, afterPost, Exchange.Counted, returnedSeat, busySeat, diedSeat]
    | error e =>
      by_cases he : e.isOSError = true <;>
        simp [postUpload, herror, he, Exchange.Counted, returnedSeat, busySeat, diedSeat]
  | failed e =>
    by_cases he : e.isOSError = true <;>
      simp [postUpload, herror, he, Exchange.Counted, returnedSeat, busySeat, diedSeat]

/-! ## What every run keeps -/

/-- Every exchange of the run is one that `_worker` counts. -/
def AllCounted (ls : List (LoadLabel n)) : Prop := ∀ i x, LoadLabel.posted i x ∈ ls → x.Counted

/-- The queue holds the send times that are not taken yet and then a marker for each thread that has
not returned; what is taken is counted, in the hands of a thread, or lost with one. -/
structure Accounted (tasks : List T) (r : LoadRun T n) (ls : List (LoadLabel n)) : Prop where
  queued : ∃ rest m, r.queue = rest.map some ++ List.replicate m none ∧
    r.taken.map Prod.snd ++ rest = tasks ∧ m + weigh returnedSeat r.threads = n ∧
      (rest ≠ [] → m = n)
  counted : r.results.totalRequests + weigh busySeat r.threads + weigh diedSeat r.threads =
    r.taken.length
  lost : weigh diedSeat r.threads = 0 ↔ AllCounted ls

theorem accounted_start (n : ℕ) (tasks : List T) : Accounted tasks (start n tasks) [] where
  queued := ⟨tasks, n, rfl, rfl, by simp [weigh, start, returnedSeat], fun _ => rfl⟩
  counted := by simp [weigh, start, busySeat, diedSeat, LoadResults.totalRequests, totalCount]
  lost := by simp [weigh, start, diedSeat, AllCounted]

theorem allCounted_snoc {l : LoadLabel n} :
    AllCounted (ls ++ [l]) ↔ AllCounted ls ∧ ∀ i x, l = .posted i x → x.Counted := by
  unfold AllCounted
  simp only [List.mem_append, List.mem_singleton]
  constructor
  · intro h
    exact ⟨fun i x hx => h i x (.inl hx), fun i x hx => h i x (.inr hx.symm)⟩
  · rintro ⟨h, hl⟩ i x (hx | hx)
    · exact h i x hx
    · exact hl i x hx.symm

theorem queue_marker {rest : List T} {m : ℕ} {queue : List (Option T)}
    (h : rest.map some ++ List.replicate m none = none :: queue) :
    rest = [] ∧ ∃ k, m = k + 1 ∧ queue = List.replicate k none := by
  cases rest with
  | cons t rest => exact absurd h (by simp)
  | nil =>
    cases m with
    | zero => exact absurd h (by simp)
    | succ k =>
      rw [List.map_nil, List.nil_append, List.replicate_succ, List.cons.injEq] at h
      exact ⟨rfl, k, rfl, h.2.symm⟩

theorem queue_task {rest : List T} {m : ℕ} {t : T} {queue : List (Option T)}
    (h : rest.map some ++ List.replicate m none = some t :: queue) :
    ∃ rest', rest = t :: rest' ∧ queue = rest'.map some ++ List.replicate m none := by
  cases rest with
  | nil => cases m <;> exact absurd h (by simp [List.replicate_succ])
  | cons t' rest' =>
    rw [List.map_cons, List.cons_append, List.cons.injEq, Option.some.injEq] at h
    exact ⟨rest', by rw [h.1], h.2.symm⟩

/-- The weights of a thread in the hands of `_worker`, between two items. -/
theorem weigh_counted {i : Fin n}
    (hseat : (∃ status, r.threads i = .countingStatus status) ∨
      ∃ typeName, r.threads i = .countingError typeName) :
    weigh returnedSeat (r.place i .getting) = weigh returnedSeat r.threads ∧
      weigh busySeat (r.place i .getting) + 1 = weigh busySeat r.threads ∧
      weigh diedSeat (r.place i .getting) = weigh diedSeat r.threads := by
  rcases hseat with ⟨status, hseat⟩ | ⟨typeName, hseat⟩
  all_goals exact ⟨weigh_place returnedSeat hseat .getting, weigh_place busySeat hseat .getting,
    weigh_place diedSeat hseat .getting⟩

theorem allCounted_snoc_of_ne {l : LoadLabel n} (h : ∀ i x, l ≠ .posted i x) :
    AllCounted (ls ++ [l]) ↔ AllCounted ls := by
  rw [allCounted_snoc, and_iff_left_iff_imp]
  intro _ i x hl
  exact absurd hl (h i x)

/-- **Each step keeps the account.** -/
theorem Accounted.step (h : Accounted tasks r ls) (hstep : r.step l = some r') :
    Accounted tasks r' (ls ++ [l]) := by
  obtain ⟨⟨rest, m, hqueue, htaken, hmarkers, hfull⟩, hcounted, hlost⟩ := h
  cases moves_of_step hstep with
  | @stop i queue hseat hfront =>
    obtain ⟨hnil, k, rfl, rfl⟩ := queue_marker (hqueue.symm.trans hfront)
    have hret : weigh returnedSeat (r.place i .returned) = weigh returnedSeat r.threads + 1 :=
      weigh_place returnedSeat hseat .returned
    have hbusy : weigh busySeat (r.place i .returned) = weigh busySeat r.threads :=
      weigh_place busySeat hseat .returned
    have hdied : weigh diedSeat (r.place i .returned) = weigh diedSeat r.threads :=
      weigh_place diedSeat hseat .returned
    refine ⟨⟨[], k, rfl, ?_, ?_, fun hne => absurd rfl hne⟩, ?_, ?_⟩
    · rw [← htaken, hnil]
    · rw [hret]
      omega
    · rw [hbusy, hdied]
      exact hcounted
    · rw [hdied, hlost, allCounted_snoc_of_ne (by simp)]
  | @take i scheduled queue hseat hfront =>
    obtain ⟨rest', rfl, rfl⟩ := queue_task (hqueue.symm.trans hfront)
    have hret : weigh returnedSeat (r.place i (.sending scheduled)) =
        weigh returnedSeat r.threads := weigh_place returnedSeat hseat (.sending scheduled)
    have hbusy : weigh busySeat (r.place i (.sending scheduled)) = weigh busySeat r.threads + 1 :=
      weigh_place busySeat hseat (.sending scheduled)
    have hdied : weigh diedSeat (r.place i (.sending scheduled)) = weigh diedSeat r.threads :=
      weigh_place diedSeat hseat (.sending scheduled)
    refine ⟨⟨rest', m, rfl, ?_, ?_, fun _ => hfull (List.cons_ne_nil _ _)⟩, ?_, ?_⟩
    · rw [← htaken, List.map_append, List.append_assoc]
      rfl
    · rw [hret]
      exact hmarkers
    · rw [hbusy, hdied, List.length_append, List.length_singleton, ← hcounted]
      exact Nat.add_right_comm _ 1 _
    · rw [hdied, hlost, allCounted_snoc_of_ne (by simp)]
  | @posted i scheduled x hseat =>
    have hret := weigh_place returnedSeat hseat (afterPost (postUpload x))
    have hbusy : weigh busySeat (r.place i (afterPost (postUpload x))) + 1 =
        weigh busySeat r.threads + busySeat (afterPost (T := T) (postUpload x)) :=
      weigh_place busySeat hseat (afterPost (postUpload x))
    have hdied : weigh diedSeat (r.place i (afterPost (postUpload x))) =
        weigh diedSeat r.threads + diedSeat (afterPost (T := T) (postUpload x)) :=
      weigh_place diedSeat hseat (afterPost (postUpload x))
    obtain ⟨hnot, hseats⟩ := seats_afterPost (T := T) x
    have hone : AllCounted (ls ++ [LoadLabel.posted i x]) ↔ AllCounted ls ∧ x.Counted := by
      rw [allCounted_snoc]
      constructor
      · intro h
        exact ⟨h.1, h.2 i x rfl⟩
      · rintro ⟨h, hx⟩
        refine ⟨h, fun j y hy => ?_⟩
        cases hy
        exact hx
    refine ⟨⟨rest, m, hqueue, htaken, ?_, hfull⟩, ?_, ?_⟩
    · have hsame : weigh returnedSeat (r.place i (afterPost (postUpload x))) =
          weigh returnedSeat r.threads := hret.trans (by rw [hnot, Nat.add_zero])
      rw [hsame]
      exact hmarkers
    · show r.results.totalRequests + weigh busySeat (r.place i (afterPost (postUpload x))) +
        weigh diedSeat (r.place i (afterPost (postUpload x))) = r.taken.length
      omega
    · rw [hone, ← hlost, hdied]
      rcases hseats with ⟨hx, -, hseat'⟩ | ⟨hx, -, hseat'⟩ <;> simp [hx, hseat']
  | @counted i results hseat htotal =>
    obtain ⟨hret, hbusy, hdied⟩ := weigh_counted hseat
    refine ⟨⟨rest, m, hqueue, htaken, ?_, hfull⟩, ?_, ?_⟩
    · rw [hret]
      exact hmarkers
    · show results.totalRequests + weigh busySeat (r.place i .getting) +
        weigh diedSeat (r.place i .getting) = r.taken.length
      omega
    · rw [hdied, hlost, allCounted_snoc_of_ne (by simp)]

theorem accounted_run (h : runs step (start n tasks) ls = some r) : Accounted tasks r ls :=
  runs_invariant (P := fun r ls => Accounted tasks r ls) h (accounted_start n tasks)
    fun _ _ _ _ _ hacc hstep => hacc.step hstep

theorem Returned.weights (h : r.Returned) :
    weigh busySeat r.threads = 0 ∧ weigh returnedSeat r.threads + weigh diedSeat r.threads = n := by
  constructor
  · refine Finset.sum_eq_zero fun i _ => ?_
    rcases h i with hi | ⟨e, hi⟩ <;> rw [hi] <;> rfl
  · have hone : ∀ i ∈ Finset.univ, returnedSeat (r.threads i) + diedSeat (r.threads i) = 1 := by
      intro i _
      rcases h i with hi | ⟨e, hi⟩ <;> rw [hi] <;> rfl
    rw [weigh, weigh, ← Finset.sum_add_distrib, Finset.sum_congr rfl hone]
    simp

/-- **No thread waits for ever**: until all of them have ended, one can go on, so `run_load` returns
once the uploads come to an end. -/
theorem live (h : Accounted tasks r ls) : r.Returned ∨ ∃ l, (r.step l).isSome = true := by
  by_cases hret : r.Returned
  · exact .inl hret
  · rw [Returned, not_forall] at hret
    obtain ⟨i, hi⟩ := hret
    rw [not_or, not_exists] at hi
    refine .inr ?_
    cases hseat : r.threads i with
    | getting =>
      obtain ⟨⟨rest, m, hqueue, -, hmarkers, -⟩, -, -⟩ := h
      refine ⟨.get i, ?_⟩
      cases hq : r.queue with
      | cons item queue => cases item <;> simp [step, hseat, hq]
      | nil =>
        -- an empty queue has given a marker to every thread, so `i` has returned
        rw [hq] at hqueue
        obtain ⟨-, hm⟩ := List.append_eq_nil_iff.mp hqueue.symm
        rw [List.replicate_eq_nil_iff] at hm
        have hlt : weigh returnedSeat r.threads < ∑ _j : Fin n, 1 := by
          refine Finset.sum_lt_sum (fun j _ => ?_) ⟨i, Finset.mem_univ i, ?_⟩
          · cases r.threads j <;> simp [returnedSeat]
          · rw [hseat]
            exact Nat.zero_lt_one
        simp only [Finset.sum_const, Finset.card_univ, Fintype.card_fin, smul_eq_mul,
          mul_one] at hlt
        omega
    | sending scheduled => exact ⟨.posted i (.httpError 503 (.ok ())), by simp [step, hseat]⟩
    | countingStatus status => exact ⟨.counted i, by simp [step, hseat]⟩
    | countingError typeName => exact ⟨.counted i, by simp [step, hseat]⟩
    | returned => exact absurd hseat hi.1
    | died e => exact absurd hseat (hi.2 e)

end LoadRun

/-- **A load run is accounted for exactly when every exchange with the server is counted.** -/
theorem accounting_complete_iff {T : Type} {n : ℕ} (hn : 1 ≤ n) {tasks : List T}
    (ls : List (LoadLabel n)) {r : LoadRun T n}
    (hrun : runs LoadRun.step (LoadRun.start n tasks) ls = some r) (hret : r.Returned) :
    (r.taken.map Prod.snd = tasks ∧ r.results.totalRequests = tasks.length) ↔
      LoadRun.AllCounted ls := by
  obtain ⟨⟨rest, m, -, htaken, hmarkers, hfull⟩, hcounted, hlost⟩ := LoadRun.accounted_run hrun
  obtain ⟨hbusy, hended⟩ := hret.weights
  have hlen := congrArg List.length htaken
  rw [List.length_append, List.length_map] at hlen
  rw [← hlost]
  constructor
  · rintro ⟨hall, htotal⟩
    omega
  · intro hdied
    have hnil : rest = [] := by
      by_contra hne
      have hm := hfull hne
      omega
    rw [hnil, List.append_nil] at htaken
    exact ⟨htaken, by rw [hnil, List.length_nil] at hlen; omega⟩

/-- Two threads, an accepted upload and one that cannot connect. -/
theorem accounting_complete_two : ∃ r : LoadRun ℕ 2,
    runs LoadRun.step (LoadRun.start 2 [0, 40])
        [.get 0, .get 1, .posted 1 (.failed ⟨"URLError", true⟩), .counted 1, .get 1,
          .posted 0 (.response 202 (.ok (.object (some "job")))), .counted 0, .get 0] = some r ∧
      r.taken.map Prod.snd = [0, 40] ∧ r.results.totalRequests = 2 := by
  refine ⟨_, rfl, (accounting_complete_iff (by decide)
    [.get 0, .get 1, .posted 1 (.failed ⟨"URLError", true⟩), .counted 1, .get 1,
      .posted 0 (.response 202 (.ok (.object (some "job")))), .counted 0, .get 0] rfl ?_).mpr ?_⟩
  · intro i
    match i with
    | 0 => exact .inl rfl
    | 1 => exact .inl rfl
  · intro i x hx
    simp only [List.mem_cons, List.not_mem_nil, reduceCtorEq, false_or, or_false,
      LoadLabel.posted.injEq] at hx
    rcases hx with ⟨-, rfl⟩ | ⟨-, rfl⟩
    · rfl
    · trivial

/-- A proxy answers an upload with a page that is not JSON: the thread dies on it, and the upload is
not counted. -/
theorem accounting_incomplete :
    ¬ ∀ (n : ℕ) (tasks : List ℕ) (ls : List (LoadLabel n)) (r : LoadRun ℕ n), 1 ≤ n →
      runs LoadRun.step (LoadRun.start n tasks) ls = some r → r.Returned →
        r.taken.map Prod.snd = tasks ∧ r.results.totalRequests = tasks.length := by
  intro h
  have hdead := h 1 [0, 40] [.get 0, .posted 0 (.response 200 (.error ⟨"JSONDecodeError", false⟩))]
    _ (le_refl 1) rfl fun i => match i with | 0 => .inr ⟨_, rfl⟩
  exact absurd hdead.2 (by decide)

end PixelForge
