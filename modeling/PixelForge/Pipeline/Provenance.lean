import PixelForge.Pipeline.Entries

/-! # Where things come from

A pipeline that starts with empty stores: every job id was drawn by one upload, and every upload
writes for one record, the one of its story.
-/
set_option autoImplicit false

namespace PixelForge
open Effects

/-- What the entry says. -/
abbrev eventOf (e : LogEntry) : Ev := ⟨e.req, e.resp⟩

/-- The journal of a process. -/
abbrev journalOf (i : Proc) (log : Log) : List Ev := journal (history i log)

/-! ## Stories -/

section Stories

variable {ext : Externals} {svc : JobService} {u : Upload} {r : JobRecord} {t : List Ev}

theorem exists_isNew (ext : Externals) (u : Upload) (j : String) :
    ∃ r : JobRecord, r.jobId = j ∧ IsNew ext u r :=
  ⟨JobService.newRecord ext u ⟨"", 0, 0, ""⟩ j none "" "", rfl, ⟨"", 0, 0, ""⟩, j, none, "", "", rfl⟩

theorem CallerMay.story {q : Request} {ans : q.Resp} (h : CallerMay svc ext u t q)
    (ha : Cloud.Answers ext q ans) (hc : Ev.counts ⟨q, ans⟩ = true) :
    ∃ r, Story svc ext u r (⟨q, ans⟩ :: t) := by
  cases q with
  | uuid4 =>
    obtain ⟨j, rfl⟩ := ha.steady rfl
    obtain ⟨r, rfl, hr⟩ := exists_isNew ext u j
    obtain rfl : t = [] := h
    exact ⟨r, hr, List.mem_cons_self, fun v hv => .inl (List.mem_singleton.mp hv)⟩
  | putObject b k body ct =>
    obtain ⟨r, hst, -, hw⟩ := h
    exact ⟨r, hst.cons hw ans⟩
  | putItem d =>
    obtain ⟨r, hst, -, ⟨rfl, -⟩ | ⟨hcomp, -⟩⟩ := h
    · exact ⟨r, hst.cons writes_record ans⟩
    · exact ⟨r, hst.cons (writes_compensation hcomp) ans⟩
  | sendMessage body attributes =>
    obtain ⟨r, hst, -, -, -, -, rfl⟩ := h
    exact ⟨r, hst.cons (writes_message attributes) ans⟩
  | metric m =>
    cases m with
    | jobsProcessed status => exact h.elim
    | _ => cases hc
  | updateItem j up => exact h.elim
  | getItem j => exact h.elim
  | getObject b k => exact h.elim
  | deleteMessage mid => exact h.elim
  | _ => cases hc

theorem Story.writes {v : Ev} (h : Story svc ext u r t) (hv : v ∈ t) (hne : v.1 ≠ .uuid4) :
    Writes svc ext u r v.1 := by
  obtain rfl | hw := h.only v hv
  · exact absurd rfl hne
  · exact hw

theorem Story.jobId_eq {j : String} (h : Story svc ext u r t) (hj : drawOk j ∈ t) :
    j = r.jobId := by
  obtain hd | hw := h.only _ hj
  · cases hd
    rfl
  · exact hw.elim

end Stories

/-! ## Runs from empty stores -/

section Runs

variable {ext : Externals} {config : Config} {staff : Proc → Bool} {G : PipeGuard} {c : Pipe}

/-- **Every upload writes for one record.** -/
theorem upload_story (h : (pipeline ext config staff).Reach G (Machine.initial Cloud.empty) c)
    (n : Nat) (u : Upload) :
    journalOf (.caller n u) c.log = [] ∨
      ∃ r, Story (.build config) ext u r (journalOf (.caller n u) c.log) := by
  refine pipeline_invariant (P := fun _ log => journalOf (.caller n u) log = [] ∨
    ∃ r, Story (.build config) ext u r (journalOf (.caller n u) log)) (.inl rfl)
    (fun _ _ _ _ hP _ _ => hP) ?_ h
  intro c e s' _ hP _ _ hmay hp _
  by_cases hi : e.who = .caller n u
  · by_cases hc : Ev.counts (eventOf e) = true
    · obtain ⟨r, hr⟩ := CallerMay.story (hi ▸ hmay) ⟨e.before, e.choice, s', hp⟩ hc
      refine .inr ⟨r, ?_⟩
      have hnote := journal_cons_self e c.log
      rw [hi, note, if_pos hc] at hnote
      rw [journalOf, hnote]
      exact hr
    · have hnote := journal_cons_self e c.log
      rw [hi, note, if_neg hc] at hnote
      rwa [journalOf, hnote]
  · rwa [journalOf, history_cons_ne hi]

theorem story_of_mem (h : (pipeline ext config staff).Reach G (Machine.initial Cloud.empty) c)
    {n : Nat} {u : Upload} {v : Ev} (hv : v ∈ journalOf (.caller n u) c.log) :
    ∃ r, Story (.build config) ext u r (journalOf (.caller n u) c.log) := by
  obtain hnil | hst := upload_story h n u
  · rw [hnil] at hv
    cases hv
  · exact hst

/-! ### Job ids -/

theorem draws_drawn {e : LogEntry} {s' : Cloud} {j : String}
    (hp : e.before.perform ext e.req e.choice = some (e.resp, s')) (hd : eventOf e = drawOk j) :
    j ∉ e.before.drawn ∧ isUuid j = true ∧ s'.drawn = j :: e.before.drawn := by
  obtain ⟨who, s, q, ch, r⟩ := e
  cases hd
  have hserve := Cloud.perform_ok hp
  simp only [Cloud.serve] at hserve
  split at hserve
  · cases hserve
  · rename_i hno
    obtain ⟨hv, rfl⟩ := Prod.mk.inj (Option.some.inj hserve)
    obtain rfl := Except.ok.inj hv
    rw [not_or] at hno
    exact ⟨hno.2, by simpa using hno.1, rfl⟩

theorem drawn_mono {e : LogEntry} {s' : Cloud} {j : String}
    (hp : e.before.perform ext e.req e.choice = some (e.resp, s')) (hj : j ∈ e.before.drawn) :
    j ∈ s'.drawn := by
  obtain ⟨who, s, q, ch, r⟩ := e
  obtain rfl | he := Cloud.perform_effect hp
  · exact hj
  · cases he with
    | draw => exact List.mem_cons_of_mem _ hj
    | _ => exact hj

/-- **Every job id is drawn by one process**, and has the form of a UUID. -/
theorem drawn_once (h : (pipeline ext config staff).Reach G (Machine.initial Cloud.empty) c)
    {e : LogEntry} (he : e ∈ c.log) {j : String} (hd : eventOf e = drawOk j) :
    j ∈ c.state.drawn ∧ isUuid j = true ∧
      ∀ e' ∈ c.log, eventOf e' = drawOk j → e'.who = e.who := by
  revert e
  refine pipeline_invariant (P := fun s log => ∀ {e : LogEntry}, e ∈ log → eventOf e = drawOk j →
    j ∈ s.drawn ∧ isUuid j = true ∧ ∀ e' ∈ log, eventOf e' = drawOk j → e'.who = e.who)
    (fun he => absurd he List.not_mem_nil) (fun _ _ _ _ hP _ _ _ he hd => hP he hd) ?_ h
  intro c e s' _ hP hbefore _ _ hp _ e₁ he₁ hd₁
  by_cases hd : eventOf e = drawOk j
  · obtain ⟨hfresh, huuid, hs⟩ := draws_drawn hp hd
    have hnone : ∀ e' ∈ c.log, eventOf e' ≠ drawOk j := fun e' he' hd' =>
      hfresh (hbefore ▸ (hP he' hd').1)
    have hall : ∀ e' ∈ e :: c.log, eventOf e' = drawOk j → e'.who = e.who := by
      intro e' he' hd'
      obtain rfl | he' := List.mem_cons.mp he'
      · rfl
      · exact absurd hd' (hnone e' he')
    exact ⟨hs ▸ List.mem_cons_self, huuid, fun e' he' hd' =>
      (hall e' he' hd').trans (hall e₁ he₁ hd₁).symm⟩
  · obtain rfl | he₁ := List.mem_cons.mp he₁
    · exact absurd hd₁ hd
    obtain ⟨hj, huuid, hone⟩ := hP he₁ hd₁
    refine ⟨drawn_mono hp (hbefore ▸ hj), huuid, fun e' he' hd' => ?_⟩
    obtain rfl | he' := List.mem_cons.mp he'
    · exact absurd hd' hd
    · exact hone e' he' hd'

/-- An id is drawn by one process only. -/
theorem same_drawer (h : (pipeline ext config staff).Reach G (Machine.initial Cloud.empty) c)
    {i i' : Proc} {j : String} (hv : drawOk j ∈ journalOf i c.log)
    (hv' : drawOk j ∈ journalOf i' c.log) : i' = i := by
  obtain ⟨e, he, rfl, hd⟩ := entry_of_journal hv
  obtain ⟨e', he', rfl, hd'⟩ := entry_of_journal hv'
  exact (drawn_once h he hd).2.2 e' he' hd'

theorem uuid_of_drawn (h : (pipeline ext config staff).Reach G (Machine.initial Cloud.empty) c)
    {i : Proc} {j : String} (hv : drawOk j ∈ journalOf i c.log) : isUuid j = true := by
  obtain ⟨e, he, -, hd⟩ := entry_of_journal hv
  exact (drawn_once h he hd).2.1

theorem fresh_draw (h : (pipeline ext config staff).Reach G (Machine.initial Cloud.empty) c)
    {e : LogEntry} {s' : Cloud} {j : String} {k : Proc} (hbefore : e.before = c.state)
    (hp : e.before.perform ext e.req e.choice = some (e.resp, s')) (hev : eventOf e = drawOk j) :
    drawOk j ∉ journalOf k c.log := by
  intro hdrawn
  obtain ⟨e', he', -, hev'⟩ := entry_of_journal hdrawn
  exact (draws_drawn hp hev).1 (hbefore ▸ (drawn_once h he' hev').1)

end Runs

end PixelForge
