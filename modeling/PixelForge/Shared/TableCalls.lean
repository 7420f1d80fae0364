import PixelForge.Effects.Interleaving
import PixelForge.Shared.Codec
import PixelForge.Shared.Journal

/-! # Any calls on the job table

`tableRuns` is any number of calls of `put_job`, `mark_processing`, `mark_complete` and
`mark_failed`, with arbitrary ids, interleaved with each other and with the disappearance of items.

`mark_processing` requires the item to exist and the other two updates do not: `Upserts` says that
one of them takes effect on an id with no item. In runs in which that never happens, every stored
item keeps validating.
-/
set_option autoImplicit false

namespace PixelForge
open Effects

/-! ## Updates of items that validate -/

section Updating

variable {intOfStr : String → Option Int} {d d' : PyDict} {a : String}

theorem readStr_congr (h : d'.lookup a = d.lookup a) : readStr d' a = readStr d a := by
  rw [readStr, readStr, h]

theorem readInt_congr (h : d'.lookup a = d.lookup a) :
    readInt intOfStr d' a = readInt intOfStr d a := by rw [readInt, readInt, h]

theorem readOptStr_congr (h : d'.lookup a = d.lookup a) : readOptStr d' a = readOptStr d a := by
  rw [readOptStr, readOptStr, h]

theorem readOptInt_congr (h : d'.lookup a = d.lookup a) :
    readOptInt intOfStr d' a = readOptInt intOfStr d a := by rw [readOptInt, readOptInt, h]

theorem readOptDict_congr (h : d'.lookup a = d.lookup a) : readOptDict d' a = readOptDict d a := by
  rw [readOptDict, readOptDict, h]

theorem readOutputs_congr (h : d'.lookup "outputs" = d.lookup "outputs") :
    readOutputs intOfStr d' = readOutputs intOfStr d := by
  rw [readOutputs, readOutputs, readOptDict_congr h]

/-- The outputs an update sets are thumbnails as pydantic has them. -/
def Update.ProperOutputs (u : Update) : Prop :=
  ∀ v, u.set.lookup "outputs" = some v →
    ∃ o : Outputs, v = .dict (toDynamoDict o.dump) ∧ ∀ kv ∈ o, kv.2.Proper

/-- What an update makes of an attribute, as the code reads it back. -/
theorem Update.lookup_apply_cases {u : Update} (hu : u.Known) {j : String} {it it' : Item}
    (h : u.apply j (some it) = .ok it') (a : String) :
    (fromDynamoDict it').lookup a = none ∨
    (fromDynamoDict it').lookup a = (fromDynamoDict it).lookup a ∨
      ∃ v w, u.set.lookup a = some v ∧ v.serialize = .ok w ∧
        (fromDynamoDict it').lookup a = some w.fromDynamo := by
  have hget : ∀ it : Item, (fromDynamoDict it).lookup a = (it.get a).map AttrValue.fromDynamo :=
    fun it => lookup_fromDynamoDict a it
  rw [hget, hget]
  obtain hn | hs | ⟨v, w, hv, hw, hg⟩ := Update.get_apply_cases h hu.nodup a
  · exact .inl (by rw [hn, Option.map_none])
  · exact .inr (.inl (by rw [hs]))
  · exact .inr (.inr ⟨v, w, hv, hw, by rw [hg, Option.map_some]⟩)

/-- **The updates keep items valid.** -/
theorem Reads.update {it it' : Item} (hr : Reads intOfStr (fromDynamoDict it)) {u : Update}
    (hu : u.Known) (ho : u.ProperOutputs) {j : String} (h : u.apply j (some it) = .ok it') :
    Reads intOfStr (fromDynamoDict it') := by
  have hkept : ∀ a ∈ "size_bytes" :: requiredStrs,
      (fromDynamoDict it').lookup a = (fromDynamoDict it).lookup a := by
    intro a ha
    have hget := hu.get_untouched ha h
    rw [lookup_fromDynamoDict, lookup_fromDynamoDict]
    exact congrArg (Option.map AttrValue.fromDynamo) hget
  constructor
  · intro a ha
    rw [readStr_congr (hkept a (List.mem_cons_of_mem _ ha))]
    exact hr.strs a ha
  · obtain ⟨st, -, hl⟩ := hu.lookup_status
    have hget : it'.get "status" = some (.s st.value) :=
      Update.get_apply_str h hu.nodup (hu.kept (by decide)) hl
    exact ⟨st, by rw [readStr_item hget, Option.bind_some, JobStatus.ofValue?_value]⟩
  · rw [readInt_congr (hkept _ List.mem_cons_self)]
    exact hr.size
  · intro a ha
    obtain hn | hs | ⟨v, w, hv, hser, hg⟩ := Update.lookup_apply_cases hu h a
    · exact ⟨none, readOptStr_of hn⟩
    · rw [readOptStr_congr hs]
      exact hr.optStrs a ha
    · obtain ⟨s, rfl⟩ := hu.strs ha hv
      obtain rfl := Except.ok.inj hser
      exact ⟨some s, readOptStr_of hg⟩
  · intro a ha
    obtain hn | hs | ⟨v, w, hv, hser, hg⟩ := Update.lookup_apply_cases hu h a
    · exact ⟨none, readOptInt_of hn⟩
    · rw [readOptInt_congr hs]
      exact hr.optInts a ha
    · obtain ⟨n, rfl⟩ := hu.ints ha hv
      obtain rfl := serialize_int hser
      rw [fromDynamo_int] at hg
      exact ⟨some n, readOptInt_of hg⟩
  · obtain hn | hs | ⟨v, w, hv, hser, hg⟩ := Update.lookup_apply_cases hu h "exif"
    · exact ⟨none, readOptDict_of hn⟩
    · rw [readOptDict_congr hs]
      exact hr.exif
    · obtain ⟨kvs, rfl⟩ := hu.exif hv
      obtain ⟨k, -, rfl⟩ := ok_of_map_ok hser
      exact ⟨some (fromDynamoDict k), readOptDict_of hg⟩
  · obtain hn | hs | ⟨v, w, hv, hser, hg⟩ := Update.lookup_apply_cases hu h "outputs"
    · exact ⟨none, readOutputs_of hn fun _ h => by cases h⟩
    · rw [readOutputs_congr hs]
      exact hr.outputs
    · obtain ⟨o, rfl, hproper⟩ := ho v hv
      have hback := PyVal.fromDynamo_serialize (.dict o.dump) w hser
      rw [PyVal.canon, Outputs.canonDict_dump] at hback
      rw [hback] at hg
      refine ⟨some o.canon, readOutputs_of hg fun o' ho' => ?_⟩
      rw [← Option.some.inj ho']
      exact Outputs.ofDict?_view hproper

/-- What `put_job` stores validates. -/
theorem JobRecord.Proper.reads {r : JobRecord} (h : r.Proper) {it : Item}
    (hit : serializeDict (JobTable.recordItem r) = .ok it) : Reads intOfStr (fromDynamoDict it) := by
  rw [(JobRecord.stored hit).1]
  exact reads_iff.mpr ⟨r.canon, JobRecord.ofDict?_publicView intOfStr h⟩

end Updating

/-! ## The calls -/

/-- A call of a method of `JobTable`. The models that are passed in are as pydantic has them. -/
inductive TableCall
  | putJob (r : JobRecord) (h : r.Proper)
  | markProcessing (jobId : String)
  | markComplete (jobId : String) (processed : ProcessedOutputs) (processingMs : Int)
      (h : ∀ kv ∈ processed.outputs, kv.2.Proper)
  | markFailed (jobId reason : String)

namespace TableCall

def run (table : JobTable) : TableCall → Py Unit
  | putJob r _ => table.putJob r
  | markProcessing j => do
    let _won : Bool ← table.markProcessing j
    pure ()
  | markComplete j processed ms _ => table.markComplete j processed ms
  | markFailed j reason => table.markFailed j reason

/-- The requests of the calls. -/
inductive May : Request → Prop
  | put {r : JobRecord} (h : r.Proper) : May (.putItem (JobTable.recordItem r))
  | update (j : String) {u : Update} (hu : u.Known) (ho : u.ProperOutputs) : May (.updateItem j u)
  | silent {q : Request} (h : q.isSilent = true) : May q

section Keeping

variable {ext : Externals}

theorem wp_ladder {q : Request} (hq : May q) (policy : RetryPolicy) (operation : String)
    (t : List Ev) : Fallible.wp (watch ext fun _ => May)
      (callWithRetry policy operation noSwallow (ask q)) (fun _ _ => True) (fun _ _ => True) t :=
  wp_retry_attempts q (fun _ _ h => .silent h) policy operation (fun _ _ => hq)
    (fun _ _ _ _ => trivial) (fun _ _ _ _ => trivial) fun _ _ _ _ => trivial

theorem wp_update (table : JobTable) (j : String) {u : String → Update}
    (hu : ∀ now, (u now).Known) (ho : ∀ now, (u now).ProperOutputs) (t : List Ev) :
    Fallible.wp (watch ext fun _ => May)
      (do
        let now : String ← ask .utcNow
        table.updateItem j (u now) : Py Unit) (fun _ _ => True) (fun _ _ => True) t :=
  (Fallible.wp_bind _ _ _).mpr (wp_watch_steady rfl (.silent rfl) fun now _ =>
    wp_ladder (.update j (hu now) (ho now)) _ _ _)

theorem keeps (table : JobTable) (call : TableCall) (t : List Ev) :
    Fallible.wp (watch ext fun _ => May) (call.run table) (fun _ _ => True) (fun _ _ => True) t := by
  cases call with
  | putJob r h => exact wp_ladder (.put h) _ _ t
  | markProcessing j =>
    have hmark := @wp_update ext table j _ .processing (fun now v hv => by cases hv) t
    refine (Fallible.wp_bind _ _ _).mpr ((Fallible.wp_tryElse _ _ _ _).mpr
      (Fallible.wp_mono hmark (fun _ _ _ => trivial) fun e t' _ => ?_))
    split <;> trivial
  | markComplete j processed ms h =>
    refine wp_update table j (.complete processed ms) (fun now v hv => ?_) t
    exact ⟨processed.outputs, (Option.some.inj hv).symm, h⟩
  | markFailed j reason => exact wp_update table j (.failed reason) (fun now v hv => by cases hv) t

end Keeping

end TableCall

/-! ## Runs of calls -/

/-- The item is gone. -/
def Cloud.dropItem (s : Cloud) (j : String) : Cloud :=
  { s with table := Function.update s.table j none }

/-- Call number `i` is `calls i`; it may be made at any time. -/
def tableRuns (ext : Externals) (table : JobTable) (calls : ℕ → TableCall) :
    Machine ℕ Request Choice String Cloud (Except Exc Unit) Request.Resp where
  prog i := (calls i).run table
  canStart _ _ := true
  perform := Cloud.perform ext
  ambient s j := some (s.dropItem j)

theorem Cloud.dropItem_table (s : Cloud) (j j' : String) :
    (s.dropItem j).table j' = if j' = j then none else s.table j' := by
  by_cases h : j' = j
  · subst h; simp [dropItem]
  · simp [dropItem, h]

abbrev TableEntry : Type := Entry ℕ Request Choice Cloud Request.Resp

/-- An update without a condition (`mark_complete` or `mark_failed`), of values that boto3
serialises, takes effect on an id with no item. -/
def upserts (e : TableEntry) : Bool :=
  match e.req with
  | .updateItem j u =>
    u.condition.isNone && (serializeDict u.set).isOk && e.choice.fault.takesEffect &&
      (e.before.table j).isNone
  | _ => false

/-- Every stored item validates. -/
def Cloud.Valid (intOfStr : String → Option Int) (s : Cloud) : Prop :=
  ∀ j it, s.table j = some it → ∃ r, JobRecord.fromItem intOfStr (fromDynamoDict it) = .ok r

/-- An update aimed at an id with no item leaves the table as it was. -/
def LeavesMissing (ext : Externals) (e : TableEntry) : Prop :=
  ∀ j u s', e.req = .updateItem j u → e.before.table j = none →
    e.before.perform ext e.req e.choice = some (e.resp, s') → s'.table = e.before.table

section Runs

variable {ext : Externals} {table : JobTable} {calls : ℕ → TableCall} {s s' : Cloud}

theorem valid_iff {intOfStr : String → Option Int} : s.Valid intOfStr ↔
    ∀ j it, s.table j = some it → Reads intOfStr (fromDynamoDict it) := by
  refine forall_congr' fun j => forall_congr' fun it => imp_congr_right fun _ => ?_
  rw [reads_iff]
  constructor
  · rintro ⟨r, h⟩
    unfold JobRecord.fromItem at h
    split at h
    · rename_i r' hr'
      exact ⟨r', hr'⟩
    · cases h
  · rintro ⟨r, h⟩
    exact ⟨r, by simp only [JobRecord.fromItem, h]⟩

/-- `mark_processing` finds its condition false, and the others do not take effect. -/
theorem update_missing {j : String} {u : Update} {ch : Choice}
    {r : Request.Resp (.updateItem j u)} (hu : u.Known)
    (h : s.perform ext (.updateItem j u) ch = some (r, s')) (hmissing : s.table j = none)
    (hupsert : upserts ⟨0, s, .updateItem j u, ch, r⟩ = false) : s' = s := by
  obtain ⟨rfl, -⟩ | ⟨it, hf, hit, -, -⟩ := Cloud.perform_updateItem h
  · rfl
  · rw [hmissing] at hit
    obtain ⟨sets, hsets, -, -⟩ := Update.apply_ok hit
    have hcondition : u.condition.isNone = false := by
      simpa [upserts, hsets, hf, hmissing, Except.isOk, Except.toBool] using hupsert
    cases hu with
    | processing now =>
      obtain ⟨i, hi, -⟩ := processing_condition hit
      cases hi
    | complete p ms now => cases hcondition
    | failed reason now => cases hcondition

/-- **One request keeps the items valid.** -/
theorem valid_step {intOfStr : String → Option Int} {q : Request} {ch : Choice} {r : q.Resp}
    (hq : TableCall.May q) (h : s.perform ext q ch = some (r, s'))
    (hupsert : upserts ⟨0, s, q, ch, r⟩ = false) (hs : s.Valid intOfStr) : s'.Valid intOfStr := by
  rw [valid_iff] at hs ⊢
  intro j it hit
  cases hq with
  | @put r' hr' =>
    obtain rfl | he := Cloud.perform_effect h
    · exact hs j it hit
    · cases he with
      | @put _ it' j' hd hj =>
        rw [Cloud.setItem_table] at hit
        split at hit
        · cases hit
          exact hr'.reads hd
        · exact hs j it hit
  | @update j' u hu ho =>
    obtain ⟨rfl, -⟩ | ⟨it', hf, hit', rfl, -⟩ := Cloud.perform_updateItem h
    · exact hs j it hit
    · rw [Cloud.setItem_table] at hit
      split at hit
      · cases hit
        cases hold : s.table j' with
        | none =>
          have hsame := update_missing hu h hold hupsert
          have hnew : (s.setItem j' it).table j' = some it := by rw [Cloud.setItem_table, if_pos rfl]
          rw [hsame, hold] at hnew
          cases hnew
        | some old =>
          rw [hold] at hit'
          exact (hs j' old hold).update hu ho hit'
      · exact hs j it hit
  | silent hq =>
    obtain rfl | he := Cloud.perform_effect h
    · exact hs j it hit
    · cases he <;> first | exact hs j it hit | cases hq

/-- What the calls may ask. -/
def tableDiscipline (ext : Externals) (table : JobTable) (calls : ℕ → TableCall) :
    Machine.Discipline (tableRuns ext table calls) where
  may _ _ := TableCall.May
  answers := Cloud.Answers ext
  post _ _ _ := True
  keeps i := by
    have hkeeps : Prog.wp (monitor note (fun _ => TableCall.May) (Cloud.Answers ext))
        ((calls i).run table) (fun _ _ => True) [] :=
      Effects.wp_mono ((calls i).keeps table []) fun _ _ _ => trivial
    exact wp_recorder_of_monitor (h := []) hkeeps
  answered s _ ch _ s' h := ⟨s, ch, s', h⟩

/-- **Items stay valid as long as nothing is upserted**: an update aimed at an id with no item
leaves the table unchanged, and if every item validates at first, then every item always does, so
that `get_job` never raises a validation error. -/
theorem items_stay_valid (ext : Externals) (table : JobTable) (calls : ℕ → TableCall) (s₀ : Cloud)
    {c : Snapshot ℕ Request Choice Cloud (Except Exc Unit) Request.Resp}
    (h : (tableRuns ext table calls).Reach (fun _ e => upserts e = false) (Machine.initial s₀) c) :
    (∀ e ∈ c.log, LeavesMissing ext e) ∧
    (s₀.Valid ext.intOfStr → c.state.Valid ext.intOfStr ∧
      ∀ j, ∃ record, JobTable.decodeItem ext.intOfStr (c.state.table j) = .ok record) := by
  refine ⟨fun e he => ?_, fun h₀ => ?_⟩
  · obtain ⟨later, earlier, hlog⟩ := List.append_of_mem he
    obtain ⟨hmay, hguard, -⟩ := h.entry (tableDiscipline ext table calls) hlog
    intro j u s' hreq hmissing hperform
    obtain ⟨who, s, q, ch, r⟩ := e
    obtain rfl : q = .updateItem j u := hreq
    cases hmay with
    | update _ hu ho => rw [update_missing hu hperform hmissing hguard]
    | silent hsilent => cases hsilent
  · have hvalid : c.state.Valid ext.intOfStr := by
      refine h.invariant (P := fun s _ => s.Valid ext.intOfStr) h₀ ?_ ?_
      · intro s log j s' hs hdrop j' it hit
        obtain rfl := Option.some.inj hdrop
        rw [Cloud.dropItem_table] at hit
        split at hit
        · cases hit
        · exact hs j' it hit
      · intro c i q k ch r s' hreach hs hi hperform hguard
        exact valid_step (hreach.may (tableDiscipline ext table calls) hi) hperform
          hguard hs
    refine ⟨hvalid, fun j => ?_⟩
    unfold JobTable.decodeItem
    split
    · exact ⟨none, rfl⟩
    · exact ⟨none, rfl⟩
    · rename_i it hne hit
      obtain ⟨r, hr⟩ := hvalid j it hit
      exact ⟨some r, by rw [hr]; rfl⟩

open Surroundings in
/-- A record is put, failed, and gone; then `mark_processing` finds nothing. -/
theorem items_stay_valid_gone :
    ∃ c, (tableRuns small {} fun
        | 0 => .putJob finished finished_proper
        | 1 => .markFailed jobId "cut off"
        | _ => .markProcessing jobId).Reach (fun _ e => upserts e = false)
          (Machine.initial Cloud.empty) c ∧ c.log.length = 5 ∧
      (∀ e ∈ c.log, LeavesMissing small e) ∧ c.state.Valid small.intOfStr := by
  let M := tableRuns small {} fun
    | 0 => .putJob finished finished_proper
    | 1 => .markFailed jobId "cut off"
    | _ => .markProcessing jobId
  let ok : Choice := {}
  let c := M.played (Machine.initial Cloud.empty) (Machine.script 0 [ok] ++
    Machine.script 1 [ok, ok] ++ .ambient jobId :: Machine.script 2 [ok, ok])
  have hrun : M.Reach Machine.always (Machine.initial Cloud.empty) c :=
    Machine.Reach.refl.played _
  have hc : Machine.lawful (fun _ e => upserts e = false) c.log = true ∧ c.log.length = 5 := by
    decide +kernel
  have hguarded := hrun.lawful hc.1
  have hempty : Cloud.empty.Valid small.intOfStr := fun _ _ h => by cases h
  obtain ⟨hmissing, hvalid⟩ := items_stay_valid small {} _ Cloud.empty hguarded
  exact ⟨c, hguarded, hc.2, hmissing, (hvalid hempty).1⟩

open Surroundings in
/-- **`mark_failed` creates an item that does not validate.** -/
theorem item_upserted :
    ∃ c, (tableRuns small {} fun _ => .markFailed jobId "cut off").Reach Machine.always
        (Machine.initial Cloud.empty) c ∧ Cloud.empty.Valid small.intOfStr ∧
      (∃ e ∈ c.log, ¬LeavesMissing small e) ∧
      JobTable.decodeItem small.intOfStr (c.state.table jobId) =
        .error (.validation "JobRecord") := by
  let M := tableRuns small {} fun _ => .markFailed jobId "cut off"
  let ok : Choice := {}
  let c := M.played (Machine.initial Cloud.empty) (Machine.script 0 [ok, ok])
  have hrun : M.Reach Machine.always (Machine.initial Cloud.empty) c :=
    Machine.Reach.refl.played _
  have hlog : c.log.head? = some ⟨0, Cloud.empty, .updateItem jobId (failedUpdate "cut off" ""), ok,
      .ok ()⟩ := rfl
  have hperform : Cloud.empty.perform small (.updateItem jobId (failedUpdate "cut off" "")) ok =
      some (.ok (), c.state) := rfl
  obtain ⟨it, hit, hdecode⟩ : ∃ it, c.state.table jobId = some it ∧
      JobTable.decodeItem small.intOfStr (some it) = .error (.validation "JobRecord") :=
    ⟨_, rfl, rfl⟩
  have hempty : Cloud.empty.Valid small.intOfStr := fun _ _ h => by cases h
  refine ⟨c, hrun, hempty, ⟨_, List.mem_of_mem_head? hlog, fun hleaves => ?_⟩, by rw [hit, hdecode]⟩
  have htable := congrFun (hleaves jobId _ c.state rfl rfl hperform) jobId
  rw [hit] at htable
  cases htable

end Runs

end PixelForge
