import PixelForge.Api.Accounting
import PixelForge.Shared.Codec

/-! # What a failed upload leaves behind

`watched` runs `create_job` on the stores and writes down its calls, each with whether it took effect:
a call may fail with no effect, or take effect and fail. `Clean` is what a failed run should leave;
`PutSettled` says of the calls that the put of the new record was answered, or never took effect.
-/
set_option autoImplicit false

namespace PixelForge
open Effects

/-! ## Runs whose calls are written down -/

/-- A call of a run, and whether it took effect. -/
structure Made where
  ev : Ev
  applied : Bool

namespace Made

/-- The call wrote a record with the status `st`, or tried to. -/
def Puts (m : Made) (st : JobStatus) : Prop :=
  ∃ d, m.ev.1 = .putItem d ∧ d.lookup "status" = some (.str st.value)

/-- The calls that draw an id or write to the table. -/
def weighs (m : Made) : Bool :=
  match m.ev.1 with
  | .uuid4 => true
  | .putItem _ => true
  | .updateItem _ _ => true
  | _ => false

theorem weighs_of_puts {m : Made} {st : JobStatus} (h : m.Puts st) : m.weighs = true := by
  obtain ⟨d, hd, -⟩ := h
  simp only [weighs, hd]

end Made

namespace Cloud

variable (ext : Externals)

/-- The call has its effect under the choice. -/
def applies (s : Cloud) (q : Request) (ch : Choice) : Bool :=
  ch.fault.takesEffect &&
    match s.serve ext q ch with
    | some (.ok _, _) => true
    | _ => false

def watch (s : Cloud × List Made) (q : Request) (ch : Choice) :
    Option (q.Resp × Cloud × List Made) :=
  (s.1.perform ext q ch).map fun x => (x.1, x.2, ⟨⟨q, x.1⟩, s.1.applies ext q ch⟩ :: s.2)

end Cloud

/-- The stores, and the calls made so far, latest first. -/
def watched (ext : Externals) : Interface Request Request.Resp (Cloud × List Made) where
  may _ _ := True
  exec s q r s' := ∃ ch, Cloud.watch ext s q ch = some (r, s')

/-! ## The property and its condition -/

def Exc.isEnqueueFailed : Exc → Bool
  | .enqueueFailed _ => true
  | _ => false

/-- The run drew the id. -/
def Drawn (j : String) (h : List Made) : Prop := ∃ m ∈ h, m.ev = ⟨.uuid4, .ok j⟩

/-- A failed enqueue was followed by a compensating put that was answered. -/
def Compensated (e : Exc) (h : List Made) : Prop :=
  e.isEnqueueFailed = true → ∃ m ∈ h, m.Puts .failed ∧ returned m.ev = true

/-- A record that says that the job failed. -/
structure Item.ShowsFailure (it : Item) : Prop where
  status : it.status = some .failed
  error : (it.get "error").isSome = true
  completedAt : (it.get "completed_at").isSome = true

/-- **What a failed upload leaves behind**: nothing was asked of AWS if it was rejected; else no record
of the new job but a failed one, provided that the compensating put does not fail. -/
def Clean (r : Except Exc JobRecord) (s : Cloud × List Made) : Prop :=
  ∀ e, r = .error e →
    (e.isRejection = true → ∀ m ∈ s.2, m.ev.1.isAws = false) ∧
    (e.isRejection = false → Compensated e s.2 →
      ∀ j it, Drawn j s.2 → s.1.table j = some it → it.ShowsFailure)

/-- Some put of the new record was answered, or none took effect. -/
def PutSettled (h : List Made) : Prop :=
  (∃ m ∈ h, m.Puts .pending ∧ returned m.ev = true) ∨ ∀ m ∈ h, m.Puts .pending → m.applied = false

section Runs

variable {ext : Externals} {svc : JobService} {s s' : Cloud × List Made} {j : String}
  {w : List Made}

/-! ## One call -/

/-- The calls of the run that count here. -/
abbrev weighty (s : Cloud × List Made) : List Made := s.2.filter Made.weighs

theorem exec_answers {q : Request} {r : q.Resp} (h : (watched ext).exec s q r s') :
    Cloud.Answers ext q r := by
  obtain ⟨ch, h⟩ := h
  obtain ⟨x, hx, he⟩ := Option.map_eq_some_iff.mp h
  obtain ⟨rfl, -⟩ := Prod.mk.inj he
  exact ⟨s.1, ch, x.2, hx⟩

theorem exec_light {q : Request} {r : q.Resp} (h : (watched ext).exec s q r s')
    (hq : ∀ b, Made.weighs ⟨⟨q, r⟩, b⟩ = false) :
    s'.1.table = s.1.table ∧ weighty s' = weighty s := by
  obtain ⟨ch, h⟩ := h
  obtain ⟨⟨r', t⟩, hx, he⟩ := Option.map_eq_some_iff.mp h
  obtain ⟨rfl, rfl⟩ := Prod.mk.inj he
  refine ⟨?_, List.filter_cons_of_neg (Bool.eq_false_iff.mp (hq _))⟩
  obtain rfl | heffect := Cloud.perform_effect hx
  · rfl
  · cases heffect <;> first | rfl | cases hq true

theorem exec_draw {r : Request.Resp .uuid4} (h : (watched ext).exec s .uuid4 r s') :
    ∃ j b, r = .ok j ∧ j ∉ s.1.drawn ∧ s'.1.table = s.1.table ∧
      s'.2 = ⟨⟨.uuid4, .ok j⟩, b⟩ :: s.2 := by
  obtain ⟨ch, h⟩ := h
  obtain ⟨⟨r', t⟩, hx, he⟩ := Option.map_eq_some_iff.mp h
  obtain ⟨rfl, rfl⟩ := Prod.mk.inj he
  obtain ⟨j, rfl⟩ := (Cloud.answers_of_perform _ _ _ _ _ hx).steady rfl
  have hserve := Cloud.perform_ok hx
  simp only [Cloud.serve] at hserve
  split at hserve
  · cases hserve
  · rename_i hfresh
    obtain ⟨hj, ht⟩ := Prod.mk.inj (Option.some.inj hserve)
    obtain rfl := Except.ok.inj hj
    obtain rfl := ht
    exact ⟨_, _, rfl, (not_or.mp hfresh).2, rfl, rfl⟩

/-- A fault comes before the call or after it. -/
theorem perform_of_serve {c c₀ t : Cloud} {ch : Choice} {q : Request} {r r₀ : q.Resp}
    (hserve : c.serve ext q ch = some (r₀, c₀)) (h : c.perform ext q ch = some (r, t)) :
    (ch.fault.takesEffect = false ∧ t = c ∧ ∃ e, r = .error e) ∨
      (ch.fault.takesEffect = true ∧ t = c₀ ∧ (r = r₀ ∨ ∃ e, r = .error e)) := by
  unfold Cloud.perform at h
  rw [hserve] at h
  cases hf : ch.fault with
  | none =>
    rw [hf] at h
    obtain ⟨rfl, rfl⟩ := Prod.mk.inj (Option.some.inj h)
    exact .inr ⟨rfl, rfl, .inl rfl⟩
  | failed e =>
    simp only [hf] at h
    split at h
    · obtain ⟨rfl, rfl⟩ := Prod.mk.inj (Option.some.inj h)
      exact .inl ⟨rfl, rfl, e, rfl⟩
    · cases h
  | lost e =>
    simp only [hf] at h
    split at h
    · obtain ⟨rfl, rfl⟩ := Prod.mk.inj (Option.some.inj h)
      exact .inr ⟨rfl, rfl, .inr ⟨e, rfl⟩⟩
    · cases h

theorem exec_put {d : PyDict} {r : Request.Resp (.putItem d)}
    (h : (watched ext).exec s (.putItem d) r s') :
    ∃ b, s'.2 = ⟨⟨.putItem d, r⟩, b⟩ :: s.2 ∧
      (b = false ∧ s'.1 = s.1 ∧ (∃ e, r = .error e) ∨
        b = true ∧ ∃ it j, serializeDict d = .ok it ∧ itemKey it = some j ∧
          s'.1 = s.1.setItem j it) := by
  obtain ⟨ch, h⟩ := h
  obtain ⟨⟨r', t⟩, hx, he⟩ := Option.map_eq_some_iff.mp h
  obtain ⟨rfl, rfl⟩ := Prod.mk.inj he
  refine ⟨_, rfl, ?_⟩
  have hrefused : ∀ e, Cloud.serve ext s.1 (.putItem d) ch = some (.error e, s.1) →
      s.1.applies ext (.putItem d) ch = false ∧ t = s.1 ∧ ∃ e, r' = .error e := by
    intro e hserve
    refine ⟨by simp only [Cloud.applies, hserve, Bool.and_false], ?_⟩
    obtain ⟨-, rfl, herror⟩ | ⟨-, rfl, rfl | herror⟩ := perform_of_serve hserve hx
    · exact ⟨rfl, herror⟩
    · exact ⟨rfl, e, rfl⟩
    · exact ⟨rfl, herror⟩
  cases hd : serializeDict d with
  | error e => exact .inl (hrefused e (by simp only [Cloud.serve, hd]))
  | ok it =>
    cases hj : itemKey it with
    | none => exact .inl (hrefused _ (by simp only [Cloud.serve, hd, hj]; rfl))
    | some j =>
      have hserve : Cloud.serve ext s.1 (.putItem d) ch = some (.ok (), s.1.setItem j it) := by
        simp only [Cloud.serve, hd, hj]
      have happlies : s.1.applies ext (.putItem d) ch = ch.fault.takesEffect := by
        simp only [Cloud.applies, hserve, Bool.and_true]
      rw [happlies]
      obtain ⟨hf, rfl, herror⟩ | ⟨hf, rfl, -⟩ := perform_of_serve hserve hx
      · exact .inl ⟨hf, rfl, herror⟩
      · exact .inr ⟨hf, it, j, rfl, hj, rfl⟩

/-! ## The stages of `create_job` -/

/-- The id `j` was drawn, and `w` are the puts since. -/
structure Underway (j : String) (w W : List Made) : Prop where
  puts : ∀ m ∈ w, ∃ d, m.ev.1 = .putItem d
  whole : ∃ b, W = w ++ [⟨⟨.uuid4, .ok j⟩, b⟩]

/-- Nothing is written yet. -/
def Unwritten (j : String) (t : String → Option Item) (W : List Made) : Prop :=
  Underway j [] W ∧ t j = none

/-- Puts of the new record `d` have failed, with or without effect. -/
def Writing (j : String) (d : PyDict) (t : String → Option Item) (W : List Made) : Prop :=
  ∃ w, Underway j w W ∧ (∀ m ∈ w, m.ev.1 = .putItem d ∧ returned m.ev = false) ∧
    ((∀ m ∈ w, m.applied = false) ∧ t j = none ∨
      (∃ m ∈ w, m.applied = true) ∧ ∃ it, t j = some it ∧ it.status = some .pending)

/-- A put of the new record was answered, and no compensating one. -/
def Written (j : String) (_ : String → Option Item) (W : List Made) : Prop :=
  ∃ w, Underway j w W ∧ (∃ m ∈ w, m.Puts .pending ∧ returned m.ev = true) ∧
    ∀ m ∈ w, m.Puts .failed → returned m.ev = false

/-- The record says that the job failed. -/
def Marked (j : String) (t : String → Option Item) (W : List Made) : Prop :=
  ∃ w, Underway j w W ∧ (∃ m ∈ w, m.Puts .pending ∧ returned m.ev = true) ∧
    ∃ it, t j = some it ∧ it.ShowsFailure

/-- A stage of a run. -/
abbrev At (P : (String → Option Item) → List Made → Prop) (s : Cloud × List Made) : Prop :=
  P s.1.table (weighty s)

/-- The property holds of this end of a run exactly if the condition does. -/
abbrev Concludes (r : Except Exc JobRecord) (s : Cloud × List Made) : Prop := Clean r s ↔ PutSettled s.2

variable {P : (String → Option Item) → List Made → Prop} {e : Exc} {d : PyDict}

theorem Underway.draw_mem {W : List Made} (h : Underway j w W) : ∃ b, (⟨⟨.uuid4, .ok j⟩, b⟩ : Made) ∈ W := by
  obtain ⟨b, rfl⟩ := h.whole
  exact ⟨b, List.mem_append_right _ (List.mem_singleton_self _)⟩

theorem Underway.cases {W : List Made} (h : Underway j w W) {m : Made} (hm : m ∈ W) :
    m ∈ w ∨ ∃ b, m = ⟨⟨.uuid4, .ok j⟩, b⟩ := by
  obtain ⟨b, rfl⟩ := h.whole
  exact (List.mem_append.mp hm).imp id fun hm => ⟨b, List.mem_singleton.mp hm⟩

theorem Underway.drawn (h : Underway j w (weighty s)) {j' : String} (hj : Drawn j' s.2) : j' = j := by
  obtain ⟨m, hm, hev⟩ := hj
  have hw : m ∈ weighty s := List.mem_filter.mpr ⟨hm, by simp only [Made.weighs, hev]⟩
  obtain hm | ⟨b, rfl⟩ := h.cases hw
  · obtain ⟨d, hd⟩ := h.puts m hm
    rw [hev] at hd
    cases hd
  · cases hev
    rfl

theorem Underway.put_mem (h : Underway j w (weighty s)) {m : Made} {st : JobStatus} (hm : m ∈ s.2)
    (hp : m.Puts st) : m ∈ w := by
  obtain hw | ⟨b, rfl⟩ := h.cases (List.mem_filter.mpr ⟨hm, Made.weighs_of_puts hp⟩)
  · exact hw
  · obtain ⟨d, hd, -⟩ := hp
    cases hd

theorem Underway.mem (h : Underway j w (weighty s)) {m : Made} (hm : m ∈ w) : m ∈ s.2 := by
  obtain ⟨b, hW⟩ := h.whole
  have hmem : m ∈ weighty s := hW ▸ List.mem_append_left _ hm
  exact (List.mem_filter.mp hmem).1

theorem putSettled_of_written (h : Underway j w (weighty s))
    (hw : ∃ m ∈ w, m.Puts .pending ∧ returned m.ev = true) : PutSettled s.2 := by
  obtain ⟨m, hm, hputs, hr⟩ := hw
  exact .inl ⟨m, h.mem hm, hputs, hr⟩

/-! ## The ends -/

theorem clean_ok (r : JobRecord) : Clean (.ok r) s := nofun

theorem clean_of_none (he : e.isRejection = false) (h : Underway j w (weighty s))
    (ht : s.1.table j = none) : Clean (.error e) s := by
  rintro _ ⟨⟩
  refine ⟨fun hrej => ?_, fun _ _ j' it hj hit => ?_⟩
  · rw [he] at hrej
    cases hrej
  · rw [h.drawn hj, ht] at hit
    cases hit

theorem concludes_empty (he : e.isRejection = false) (h : At (Unwritten j) s) :
    Concludes (.error e) s := by
  refine iff_of_true (clean_of_none he h.1 h.2) (.inr fun m hm hp => ?_)
  exact absurd (h.1.put_mem hm hp) List.not_mem_nil

theorem concludes_writing (hrej : e.isRejection = false) (henq : e.isEnqueueFailed = false)
    (hd : d.lookup "status" = some (.str JobStatus.pending.value)) (h : At (Writing j d) s) :
    Concludes (.error e) s := by
  obtain ⟨w, hb, hw, ⟨happlied, ht⟩ | ⟨⟨m, hm, happlied⟩, it, ht, hst⟩⟩ := h
  · exact iff_of_true (clean_of_none hrej hb ht) (.inr fun m hm hp => happlied m (hb.put_mem hm hp))
  · refine iff_of_false (fun hclean => ?_) ?_
    · obtain ⟨b, hdraw⟩ := hb.draw_mem
      have hfailed := ((hclean e rfl).2 hrej fun h => absurd h (Bool.eq_false_iff.mp henq)) j it
        ⟨_, (List.mem_filter.mp hdraw).1, rfl⟩ ht
      cases hst.symm.trans hfailed.status
    · rintro (⟨m', hm', hp, hr⟩ | hnone)
      · rw [(hw m' (hb.put_mem hm' hp)).2] at hr
        cases hr
      · rw [hnone m (hb.mem hm) ⟨d, (hw m hm).1, hd⟩] at happlied
        cases happlied

theorem concludes_returned (r : JobRecord) (h : At (Written j) s) : Concludes (.ok r) s := by
  obtain ⟨w, hb, hw, -⟩ := h
  exact iff_of_true (clean_ok r) (putSettled_of_written hb hw)

/-- The enqueue failed, and so did the compensating put, or it marked the record. -/
theorem concludes_enqueueFailed (text : String) (h : At (Written j) s ∨ At (Marked j) s) :
    Concludes (.error (.enqueueFailed text)) s := by
  obtain ⟨w, hb, hw, hfailed⟩ | ⟨w, hb, hw, it, hit, hshows⟩ := h
  · refine iff_of_true ?_ (putSettled_of_written hb hw)
    rintro _ ⟨⟩
    refine ⟨nofun, fun _ hcomp => ?_⟩
    obtain ⟨m, hm, hp, hr⟩ := hcomp rfl
    rw [hfailed m (hb.put_mem hm hp) hp] at hr
    cases hr
  · refine iff_of_true ?_ (putSettled_of_written hb hw)
    rintro _ ⟨⟩
    refine ⟨nofun, fun _ _ j' it' hj hit' => ?_⟩
    rw [hb.drawn hj, hit] at hit'
    obtain rfl := Option.some.inj hit'
    exact hshows

/-! ## The functions -/

theorem keep_light {q : Request} (hq : ∀ r b, Made.weighs ⟨⟨q, r⟩, b⟩ = false) (hs : At P s)
    {r : q.Resp} (he : (watched ext).exec s q r s') : At P s' := by
  obtain ⟨ht, hw⟩ := exec_light he (hq r)
  unfold At
  rw [ht, hw]
  exact hs

theorem keeps_light {q : Request} (hq : ∀ r b, Made.weighs ⟨⟨q, r⟩, b⟩ = false) :
    Fallible.Keeps (watched ext) (At P) (ask q) := by
  intro s hs
  refine (wp_ask _ _ _ _).mpr ⟨trivial, ?_⟩
  rintro (e | v) s' he
  · exact keep_light hq hs he
  · exact keep_light hq hs he

theorem wait_light {q : Request} (hq : q.isWait = true) (r : q.Resp) (b : Bool) :
    Made.weighs ⟨⟨q, r⟩, b⟩ = false := by
  cases q <;> first | rfl | cases hq

theorem keeps_lightRetry {q : Request} (hq : ∀ r b, Made.weighs ⟨⟨q, r⟩, b⟩ = false)
    (policy : RetryPolicy) (operation : String) :
    Fallible.Keeps (watched ext) (At P) (callWithRetry policy operation noSwallow (ask q)) :=
  keeps_callWithRetry (keeps_light hq) (fun _ hwait => keeps_light (wait_light hwait)) policy operation _

theorem wp_light {α : Type} {q : Request} {f : q.Val → Py α} {Q : α → Cloud × List Made → Prop}
    {X : Exc → Cloud × List Made → Prop} (hsteady : q.isSteady = true)
    (hq : ∀ r b, Made.weighs ⟨⟨q, r⟩, b⟩ = false) (hs : At P s)
    (hf : ∀ v s', At P s' → Fallible.wp (watched ext) (f v) Q X s') :
    Fallible.wp (watched ext) (Bind.bind (m := Fallible Request Request.Resp Exc) (ask q) f) Q X s := by
  refine (Fallible.wp_bind _ _ _).mpr ((wp_ask _ _ _ _).mpr ⟨trivial, ?_⟩)
  rintro r s' he
  obtain ⟨v, rfl⟩ := (exec_answers he).steady hsteady
  exact hf v s' (keep_light hq hs he)

theorem wait_keeps (s : Cloud × List Made) (q : Request) (hs : At P s) (hq : q.isWait = true) :
    (watched ext).may s q ∧ ∀ r s', (watched ext).exec s q r s' → At P s' ∧ ∃ v, r = .ok v := by
  refine ⟨trivial, fun r s' he => ⟨keep_light (wait_light hq) hs he, ?_⟩⟩
  exact (exec_answers he).steady (by cases q <;> first | rfl | cases hq)

theorem Underway.put {W : List Made} (h : Underway j w W) (d : PyDict) (r : Request.Resp (.putItem d))
    (b : Bool) : Underway j (⟨⟨.putItem d, r⟩, b⟩ :: w) (⟨⟨.putItem d, r⟩, b⟩ :: W) where
  puts := List.forall_mem_cons.mpr ⟨⟨d, rfl⟩, h.puts⟩
  whole := by
    obtain ⟨b', rfl⟩ := h.whole
    exact ⟨b', rfl⟩

theorem writing_put {r : JobRecord} {ans : Request.Resp (.putItem (JobTable.recordItem r))}
    (hplain : r.Plain) (hst : r.status = .pending)
    (hs : At (Writing r.jobId (JobTable.recordItem r)) s)
    (he : (watched ext).exec s (.putItem (JobTable.recordItem r)) ans s') :
    (∀ v, ans = .ok v → At (Written r.jobId) s') ∧
      ∀ e, ans = .error e → At (Writing r.jobId (JobTable.recordItem r)) s' := by
  obtain ⟨w, hb, hw, ht⟩ := hs
  obtain ⟨b, hs', hcase⟩ := exec_put he
  have hbegun : Underway r.jobId (⟨⟨.putItem (JobTable.recordItem r), ans⟩, b⟩ :: w) (weighty s') := by
    unfold weighty
    rw [hs', List.filter_cons_of_pos rfl]
    exact hb.put _ _ b
  have hstatus : (JobTable.recordItem r).lookup "status" = some (.str r.status.value) :=
    JobTable.recordItem_status r
  rw [hst] at hstatus
  refine ⟨?_, ?_⟩
  · rintro v rfl
    refine ⟨_, hbegun, ⟨_, List.mem_cons_self, ⟨_, rfl, hstatus⟩, rfl⟩, ?_⟩
    rintro m hm ⟨d, hd, hfailed⟩
    obtain rfl | hm := List.mem_cons.mp hm
    · obtain rfl := Request.putItem.inj hd
      have hne : JobStatus.pending.value = JobStatus.failed.value :=
        PyVal.str.inj (Option.some.inj (hstatus.symm.trans hfailed))
      exact absurd hne (by decide)
    · exact (hw m hm).2
  · rintro e rfl
    refine ⟨_, hbegun, List.forall_mem_cons.mpr ⟨⟨rfl, rfl⟩, hw⟩, ?_⟩
    obtain ⟨rfl, hcloud, -⟩ | ⟨rfl, it, j', hd, hj', hcloud⟩ := hcase
    · rw [hcloud]
      obtain ⟨hnone, htable⟩ | ⟨⟨m, hm, happlied⟩, hitem⟩ := ht
      · exact .inl ⟨List.forall_mem_cons.mpr ⟨rfl, hnone⟩, htable⟩
      · exact .inr ⟨⟨m, List.mem_cons_of_mem _ hm, happlied⟩, hitem⟩
    · have hkey := (JobRecord.stored hd).2
      obtain rfl := Option.some.inj (hkey.symm.trans hj')
      refine .inr ⟨⟨_, List.mem_cons_self, rfl⟩, it, ?_, ?_⟩
      · rw [hcloud, Cloud.setItem_table, if_pos rfl]
      · exact ((hplain.storedAs hd : r.StoredAs ext.intOfStr it).status).trans (congrArg some hst)

theorem compensating_put {r : JobRecord} {ans : Request.Resp (.putItem (JobTable.recordItem r))}
    (hplain : r.Plain) (hst : r.status = .failed) (herror : r.error.isSome = true)
    (hcompleted : r.completedAt.isSome = true) (hs : At (Written r.jobId) s)
    (he : (watched ext).exec s (.putItem (JobTable.recordItem r)) ans s') :
    (∀ v, ans = .ok v → At (Marked r.jobId) s') ∧ ∀ e, ans = .error e → At (Written r.jobId) s' := by
  obtain ⟨w, hb, ⟨m, hm, hp, hr⟩, hfailed⟩ := hs
  obtain ⟨b, hs', hcase⟩ := exec_put he
  have hbegun : Underway r.jobId (⟨⟨.putItem (JobTable.recordItem r), ans⟩, b⟩ :: w) (weighty s') := by
    unfold weighty
    rw [hs', List.filter_cons_of_pos rfl]
    exact hb.put _ _ b
  refine ⟨?_, ?_⟩
  · rintro v rfl
    obtain ⟨-, -, e, he⟩ | ⟨rfl, it, j', hd, hj', hcloud⟩ := hcase
    · cases he
    · obtain rfl := Option.some.inj ((JobRecord.stored hd).2.symm.trans hj')
      have hstored : r.StoredAs ext.intOfStr it := hplain.storedAs hd
      refine ⟨_, hbegun, ⟨m, List.mem_cons_of_mem _ hm, hp, hr⟩, it, ?_, ?_⟩
      · rw [hcloud, Cloud.setItem_table, if_pos rfl]
      · refine ⟨hstored.status.trans (congrArg some hst), ?_, ?_⟩
        · rw [hstored.error, Option.isSome_map, herror]
        · rw [hstored.completedAt, Option.isSome_map, hcompleted]
  · rintro e rfl
    refine ⟨_, hbegun, ⟨m, List.mem_cons_of_mem _ hm, hp, hr⟩, ?_⟩
    exact List.forall_mem_cons.mpr ⟨fun _ => rfl, hfailed⟩

theorem raised_by_call (h : e.isOwn = false ∨ e.isGiveUp = true) :
    e.isRejection = false ∧ e.isEnqueueFailed = false := by
  cases e <;> first | exact ⟨rfl, rfl⟩ | (obtain h | h := h <;> cases h)

theorem wp_putNew {r : JobRecord} (hplain : r.Plain) (hst : r.status = .pending) (table : JobTable)
    (hs : At (Unwritten r.jobId) s) :
    Fallible.wp (watched ext) (table.putJob r) (fun _ => At (Written r.jobId))
      (fun e => Concludes (.error e)) s := by
  have hstatus : (JobTable.recordItem r).lookup "status" = some (.str r.status.value) :=
    JobTable.recordItem_status r
  rw [hst] at hstatus
  have hends : ∀ {e s}, (e.isOwn = false ∨ e.isGiveUp = true) →
      At (Writing r.jobId (JobTable.recordItem r)) s → Concludes (.error e) s := fun he hs =>
    concludes_writing (raised_by_call he).1 (raised_by_call he).2 hstatus hs
  have hstart : At (Writing r.jobId (JobTable.recordItem r)) s :=
    ⟨[], hs.1, fun _ hm => absurd hm List.not_mem_nil,
      .inl ⟨fun _ hm => absurd hm List.not_mem_nil, hs.2⟩⟩
  refine wp_callWithRetry (J := At (Writing r.jobId (JobTable.recordItem r)))
    (q := .putItem (JobTable.recordItem r)) table.policy _ (fun _ _ => trivial) wait_keeps ?_ ?_ ?_ ?_
    hstart
  · exact fun s v s' hs he => (writing_put hplain hst hs he).1 v rfl
  · exact fun s e s' hs he _ => (writing_put hplain hst hs he).2 e rfl
  · exact fun s e s' hs he _ => hends (.inl ((exec_answers he).not_own rfl))
      ((writing_put hplain hst hs he).2 e rfl)
  · exact fun s e hs he => hends (.inr he) hs

theorem wp_putFailed {r : JobRecord} (hplain : r.Plain) (hst : r.status = .failed)
    (herror : r.error.isSome = true) (hcompleted : r.completedAt.isSome = true) (table : JobTable)
    (hs : At (Written r.jobId) s) :
    Fallible.wp (watched ext) (table.putJob r)
      (fun _ s' => At (Written r.jobId) s' ∨ At (Marked r.jobId) s')
      (fun _ s' => At (Written r.jobId) s' ∨ At (Marked r.jobId) s') s := by
  refine wp_callWithRetry (J := At (Written r.jobId)) (q := .putItem (JobTable.recordItem r))
    table.policy _ (fun _ _ => trivial) wait_keeps ?_ ?_ ?_ ?_ hs
  · exact fun s v s' hs he =>
      .inr ((compensating_put hplain hst herror hcompleted hs he).1 v rfl)
  · exact fun s e s' hs he _ => (compensating_put hplain hst herror hcompleted hs he).2 e rfl
  · exact fun s e s' hs he _ =>
      .inl ((compensating_put hplain hst herror hcompleted hs he).2 e rfl)
  · exact fun s e hs _ => .inl hs

theorem wp_markUnqueueable {r : JobRecord} (hplain : r.Plain) (cause : Exc)
    (hs : At (Written r.jobId) s) :
    Fallible.wp (watched ext) (svc.markUnqueueable r cause)
      (fun _ s' => At (Written r.jobId) s' ∨ At (Marked r.jobId) s') (fun _ _ => False) s := by
  refine (Fallible.wp_tryExcept _ _).mpr ?_
  refine wp_light (P := Written r.jobId) rfl (fun _ _ => rfl) hs fun updatedAt s₁ hs₁ => ?_
  refine wp_light (P := Written r.jobId) rfl (fun _ _ => rfl) hs₁ fun completedAt s₂ hs₂ => ?_
  exact wp_putFailed (unqueueable_plain hplain cause updatedAt completedAt) rfl rfl rfl _ hs₂

theorem wp_enqueue {r : JobRecord} (hplain : r.Plain) (u : Upload) (hs : At (Written r.jobId) s) :
    Fallible.wp (watched ext) (svc.enqueue ext u r) (fun a => Concludes (.ok a))
      (fun e => Concludes (.error e)) s := by
  refine wp_light (P := Written r.jobId) rfl (fun _ _ => rfl) hs fun context s₁ hs₁ => ?_
  have hsend : Fallible.Keeps (watched ext) (At (Written r.jobId))
      (svc.clients.queue.sendJob ((svc.newMessage r).toJson ext) (setKey context "job_id" r.jobId)) :=
    .tryExcept (keeps_lightRetry (q := .sendMessage ..) (fun _ _ => rfl) _ _) fun e =>
      .bind (keeps_light fun _ _ => rfl) fun _ => .raise e
  refine (Fallible.wp_tryElse _ _ _ _).mpr (Fallible.wp_mono (hsend s₁ hs₁) ?_ ?_)
  · intro mid s₂ hs₂
    exact wp_light (P := Written r.jobId) rfl (fun _ _ => rfl) hs₂ fun _ s₃ hs₃ =>
      wp_light (P := Written r.jobId) rfl (fun _ _ => rfl) hs₃ fun _ s₄ hs₄ => concludes_returned r hs₄
  · intro e s₂ hs₂
    exact (Fallible.wp_bind _ _ _).mpr (Fallible.wp_mono (wp_markUnqueueable hplain e hs₂)
      (fun _ s₃ hs₃ => concludes_enqueueFailed _ hs₃) fun _ _ h => h.elim)

/-! ## `create_job` -/

/-- The calls before the id is drawn. -/
structure Gated (s₀ : Cloud) (s : Cloud × List Made) : Prop where
  cloud : s.1 = s₀
  calls : ∀ m ∈ s.2, m.ev.1.isPillow = true

theorem Gated.no_aws {s₀ : Cloud} (h : Gated s₀ s) {m : Made} (hm : m ∈ s.2) :
    m.ev.1.isAws = false ∧ m.weighs = false := by
  obtain ⟨⟨q, r⟩, b⟩ := m
  have hq : q.isPillow = true := h.calls _ hm
  cases q <;> first | exact ⟨rfl, rfl⟩ | cases hq

/-- What fails at the gate asks nothing of AWS. -/
theorem concludes_gated {s₀ : Cloud} (h : Gated s₀ s) (e : Exc) : Concludes (.error e) s := by
  refine iff_of_true ?_ (.inr fun m hm hp => ?_)
  · rintro _ ⟨⟩
    refine ⟨fun _ m hm => (h.no_aws hm).1, fun _ _ j it hj _ => ?_⟩
    obtain ⟨m, hm, hev⟩ := hj
    have hpillow := h.calls m hm
    rw [hev] at hpillow
    cases hpillow
  · cases (h.no_aws hm).2.symm.trans (Made.weighs_of_puts hp)

theorem keeps_gated {s₀ : Cloud} {q : Request} (hq : q.isPillow = true) :
    Fallible.Keeps (watched ext) (Gated s₀) (ask q) := by
  intro s hs
  refine (wp_ask _ _ _ _).mpr ⟨trivial, ?_⟩
  rintro r s' ⟨ch, he⟩
  obtain ⟨⟨r', t⟩, hx, he⟩ := Option.map_eq_some_iff.mp he
  obtain ⟨rfl, rfl⟩ := Prod.mk.inj he
  have ht : t = s.1 := by
    obtain ht | heffect := Cloud.perform_effect hx
    · exact ht
    · cases heffect <;> cases hq
  have hgated : Gated s₀ (t, ⟨⟨q, r'⟩, s.1.applies ext q ch⟩ :: s.2) :=
    ⟨ht.trans hs.cloud, List.forall_mem_cons.mpr ⟨hq, hs.calls⟩⟩
  cases r' with
  | ok v => exact hgated
  | error e => exact hgated

theorem keeps_validateUpload {s₀ : Cloud} (contentType : Option String) (sizeBytes : Nat) :
    Fallible.Keeps (watched ext) (Gated s₀) (svc.validateUpload ext contentType sizeBytes) := by
  unfold JobService.validateUpload
  split
  · exact .raise _
  · dsimp only
    split
    · exact .pure _
    · exact .raise _

theorem keeps_probeUpload {s₀ : Cloud} (data : Bytes) :
    Fallible.Keeps (watched ext) (Gated s₀) (JobService.probeUpload data) := by
  have hprobe : Fallible.Keeps (watched ext) (Gated s₀) (probeImage data) := by
    unfold probeImage
    split
    · exact .raise _
    · refine .tryElse (keeps_gated rfl) (fun e => .raise _) fun header => ?_
      dsimp only
      split
      · exact .raise _
      · split
        · exact .raise _
        · exact .pure _
  refine .tryExcept hprobe fun e => ?_
  split
  · exact .raise _
  · exact .raise _

theorem wp_storeOriginal (store : S3Store) (key : String) (data : Bytes) (contentType : String)
    (hs : At (Unwritten j) s) :
    Fallible.wp (watched ext) (store.putBytes key data contentType) (fun _ => At (Unwritten j))
      (fun e => Concludes (.error e)) s := by
  refine wp_callWithRetry (J := At (Unwritten j)) (q := .putObject store.bucket key data contentType)
    store.policy _ (fun _ _ => trivial) wait_keeps ?_ ?_ ?_ ?_ hs
  · exact fun s v s' hs he => keep_light (fun _ _ => rfl) hs he
  · exact fun s e s' hs he _ => keep_light (fun _ _ => rfl) hs he
  · exact fun s e s' hs he _ => concludes_empty
      (raised_by_call (.inl ((exec_answers he).not_own rfl))).1 (keep_light (fun _ _ => rfl) hs he)
  · exact fun s e hs he => concludes_empty (raised_by_call (.inr he)).1 hs

/-- `create_job`, once the upload has passed the gate. -/
theorem wp_admitted (u : Upload) (probe : ImageProbe) {s₀ : Cloud} (h : Gated s₀ s)
    (hunused : ∀ j, j ∉ s₀.drawn → s₀.table j = none) :
    Fallible.wp (watched ext) (do
        let jobId : String ← ask .uuid4
        let traceId : Option String ← ask .currentTraceId
        let createdAt : String ← ask .utcNow
        let updatedAt : String ← ask .utcNow
        svc.submit ext u (JobService.newRecord ext u probe jobId traceId createdAt updatedAt))
      (fun a => Concludes (.ok a)) (fun e => Concludes (.error e)) s := by
  refine (Fallible.wp_bind _ _ _).mpr ((wp_ask _ _ _ _).mpr ⟨trivial, ?_⟩)
  rintro _ s₁ he
  obtain ⟨j, b, rfl, hj, htable, hs₁⟩ := exec_draw he
  have hempty : At (Unwritten j) s₁ := by
    refine ⟨⟨fun _ hm => absurd hm List.not_mem_nil, b, ?_⟩, ?_⟩
    · unfold weighty
      rw [hs₁, List.filter_cons_of_pos rfl]
      exact congrArg _ (List.filter_eq_nil_iff.mpr fun m hm => Bool.eq_false_iff.mp (h.no_aws hm).2)
    · rw [htable, h.cloud]
      rw [h.cloud] at hj
      exact hunused j hj
  refine wp_light (P := Unwritten j) rfl (fun _ _ => rfl) hempty fun traceId s₂ hs₂ => ?_
  refine wp_light (P := Unwritten j) rfl (fun _ _ => rfl) hs₂ fun createdAt s₃ hs₃ => ?_
  refine wp_light (P := Unwritten j) rfl (fun _ _ => rfl) hs₃ fun updatedAt s₄ hs₄ => ?_
  have hplain := newRecord_plain ext u probe j traceId createdAt updatedAt
  refine (Fallible.wp_bind _ _ _).mpr
    (Fallible.wp_mono (wp_storeOriginal _ _ _ _ hs₄) (fun _ s₅ hs₅ => ?_) fun _ _ h => h)
  exact (Fallible.wp_bind _ _ _).mpr (Fallible.wp_mono (wp_putNew hplain rfl _ hs₅)
    (fun _ s₆ hs₆ => wp_enqueue hplain u hs₆) fun _ _ h => h)

/-- **An upload that fails leaves nothing behind** in exactly the runs in which the put of the new
record settled. -/
theorem createJob_fails_cleanly {s₀ : Cloud} {u : Upload} {r : Except Exc JobRecord}
    (hunused : ∀ j, j ∉ s₀.drawn → s₀.table j = none)
    (hrun : Steps (watched ext) (svc.createJob ext u) (s₀, []) (.ret r) s) :
    Clean r s ↔ PutSettled s.2 := by
  have hgate : Gated s₀ (s₀, []) := ⟨rfl, fun _ hm => absurd hm List.not_mem_nil⟩
  have hjob : Fallible.wp (watched ext) (svc.createJob ext u) (fun a => Concludes (.ok a))
      (fun e => Concludes (.error e)) (s₀, []) := by
    refine (Fallible.wp_bind _ _ _).mpr (Fallible.wp_mono (keeps_validateUpload _ _ _ hgate)
      (fun _ s₁ hs₁ => ?_) fun e _ h => concludes_gated h e)
    refine (Fallible.wp_bind _ _ _).mpr (Fallible.wp_mono (keeps_probeUpload _ _ hs₁)
      (fun probe s₂ hs₂ => ?_) fun e _ h => concludes_gated h e)
    exact wp_admitted u probe hs₂ hunused
  have hend := hrun.returned hjob
  cases r with
  | ok a => exact hend
  | error e => exact hend

end Runs

namespace Surroundings

/-- The response of a call is lost. -/
def timedOut : Fault := .lost (.botoCoreError "ReadTimeoutError" "Read timeout on endpoint URL")

def noFault : Choice := {}

/-- The answers of an upload up to the put of its record. -/
def untilPut : List Choice :=
  [noFault, { text := jobId }, noFault, { text := clock }, { text := clock }, noFault]

/-- Every put of the record takes effect, and none is answered. -/
def unanswered : List Choice :=
  untilPut ++ [{ fault := timedOut }, noFault, noFault, { fault := timedOut }, noFault, noFault,
    { fault := timedOut }, noFault, noFault, { fault := timedOut }]

/-- A run of `create_job` from empty stores. -/
def created (chs : List Choice) :
    Option (Prog Request Request.Resp (Except Exc JobRecord) × (Cloud × List Made) × History) :=
  Prog.play (Cloud.watch small) ((JobService.build config).createJob small goodUpload) (Cloud.empty, [])
    chs

theorem steps_created {chs : List Choice} {r : Except Exc JobRecord} {s : Cloud × List Made}
    {h : History} (hplay : created chs = some (.ret r, s, h)) :
    Steps (watched small) ((JobService.build config).createJob small goodUpload) (Cloud.empty, [])
      (.ret r) s := Prog.play_answered (fun _ _ ch _ _ hstep => ⟨ch, hstep⟩) hplay

/-- The id that a call drew. -/
def drawnId (m : Made) : Option String :=
  match m.ev with
  | ⟨.uuid4, .ok j⟩ => some j
  | _ => none

theorem drawn_of_drawnId {h : List Made} (hdrew : (h.any fun m => drawnId m == some jobId) = true) :
    Drawn jobId h := by
  obtain ⟨⟨⟨q, r⟩, b⟩, hm, hev⟩ := List.any_eq_true.mp hdrew
  cases q with
  | uuid4 =>
    cases r with
    | error e => cases hev
    | ok j =>
      have hj : (some j : Option String) = some jobId := eq_of_beq (α := Option String) hev
      obtain rfl := Option.some.inj hj
      exact ⟨_, hm, rfl⟩
  | _ => cases hev

/-- The queue refuses the message, and the record is marked. -/
def unqueued : List Choice :=
  untilPut ++ [noFault, noFault, { fault := .failed (.clientError "AccessDenied" 403 "Access Denied") },
    noFault, { text := clock }, { text := clock }, noFault]

theorem createJob_fails_cleanly_unqueued : ∃ r s,
    Steps (watched small) ((JobService.build config).createJob small goodUpload) (Cloud.empty, [])
      (.ret r) s ∧ (Clean r s ↔ PutSettled s.2) := by
  have hruns : ((created unqueued).any fun x => x.1.done) = true := by rfl
  obtain ⟨⟨p, s, h⟩, hplay, hdone⟩ := (Option.any_eq_true _ _).mp hruns
  cases p with
  | call q k => cases hdone
  | ret r =>
    have hrun := steps_created hplay
    exact ⟨r, s, hrun, createJob_fails_cleanly (fun _ _ => rfl) hrun⟩

/-- An upload that fails and leaves its record pending. -/
def leavesPending : Prog Request Request.Resp (Except Exc JobRecord) → Cloud × List Made → Bool
  | .ret (.error e), s => !e.isRejection && !e.isEnqueueFailed && (s.2.any fun m => drawnId m == some jobId) &&
      (s.1.table jobId).any fun it => it.status == some .pending
  | _, _ => false

theorem unanswered_put_stays_pending : ∃ e s,
    Steps (watched small) ((JobService.build config).createJob small goodUpload) (Cloud.empty, [])
      (.ret (.error e)) s ∧ ¬ Clean (.error e) s := by
  have hruns : ((created unanswered).any fun x => leavesPending x.1 x.2.1) = true := by decide +kernel
  obtain ⟨⟨p, s, h⟩, hplay, hleaves⟩ := (Option.any_eq_true _ _).mp hruns
  dsimp only at hleaves
  unfold leavesPending at hleaves
  split at hleaves
  · rename_i e
    simp only [Bool.and_eq_true, Bool.not_eq_true'] at hleaves
    obtain ⟨⟨⟨hrej, henq⟩, hdrew⟩, hpending⟩ := hleaves
    obtain ⟨it, hit, hst⟩ := (Option.any_eq_true _ _).mp hpending
    refine ⟨e, s, steps_created hplay, fun hclean => ?_⟩
    have hshows := (hclean e rfl).2 hrej (fun h => absurd h (Bool.eq_false_iff.mp henq)) jobId it
      (drawn_of_drawnId hdrew) hit
    rw [hshows.status] at hst
    cases hst
  · cases hleaves

end Surroundings

end PixelForge
