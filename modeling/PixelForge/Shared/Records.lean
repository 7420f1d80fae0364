import PixelForge.Api.Service
import PixelForge.Shared.Transitions

/-! # Items that decode

`Item.Typed`: every attribute of `JobRecord` that a stored item has is of the right type, so
`get_job` decodes it. What `create_job` writes is typed, and the three updates keep it so.
-/
set_option autoImplicit false

namespace PixelForge

/-! ## Reading attributes -/

section Reading

variable {it : Item} {intOfStr : String → Option Int} {a : String}

theorem readStr_item {v : String} (h : it.get a = some (.s v)) :
    readStr (fromDynamoDict it) a = some v := by
  unfold Item.get at h
  simp [readStr, lookup_fromDynamoDict, h, AttrValue.fromDynamo]

theorem get_of_readStr {v : String} (h : readStr (fromDynamoDict it) a = some v) :
    it.get a = some (.s v) := by
  unfold Item.get
  unfold readStr at h
  rw [lookup_fromDynamoDict] at h
  cases hl : it.lookup a with
  | none => simp [hl] at h
  | some w =>
    rw [hl, Option.map_some] at h
    cases w with
    | s s => simpa [AttrValue.fromDynamo] using h
    | n q =>
      simp only [AttrValue.fromDynamo] at h
      split_ifs at h
    | _ => simp [AttrValue.fromDynamo] at h

theorem fromDynamo_int (n : Int) : (AttrValue.n n).fromDynamo = .int n := by
  simp [AttrValue.fromDynamo]

theorem readInt_item {n : Int} (h : it.get a = some (.n n)) :
    readInt intOfStr (fromDynamoDict it) a = some n := by
  unfold Item.get at h
  simp [readInt, lookup_fromDynamoDict, h, fromDynamo_int, asInt]

theorem readOptStr_item (h : ∀ v, it.get a = some v → ∃ s, v = .s s) :
    ∃ o, readOptStr (fromDynamoDict it) a = some o := by
  unfold Item.get at h
  unfold readOptStr
  rw [lookup_fromDynamoDict]
  cases hl : it.lookup a with
  | none => exact ⟨none, rfl⟩
  | some v =>
    obtain ⟨s, rfl⟩ := h v hl
    exact ⟨some s, rfl⟩

theorem readOptInt_item (h : ∀ v, it.get a = some v → ∃ n : Int, v = .n n) :
    ∃ o, readOptInt intOfStr (fromDynamoDict it) a = some o := by
  unfold Item.get at h
  unfold readOptInt
  rw [lookup_fromDynamoDict]
  cases hl : it.lookup a with
  | none => exact ⟨none, rfl⟩
  | some v =>
    obtain ⟨n, rfl⟩ := h v hl
    exact ⟨some n, by simp [fromDynamo_int, asInt]⟩

theorem readOptDict_item (h : ∀ v, it.get a = some v → ∃ kvs, v = .m kvs) :
    readOptDict (fromDynamoDict it) a =
      some (match it.get a with
        | some (.m kvs) => some (fromDynamoDict kvs)
        | _ => none) := by
  unfold Item.get at h ⊢
  unfold readOptDict
  rw [lookup_fromDynamoDict]
  cases hl : it.lookup a with
  | none => rfl
  | some v =>
    obtain ⟨kvs, rfl⟩ := h v hl
    rfl

end Reading

/-! ## Typed items -/

/-- The string attributes that every record has, apart from the status. -/
def requiredStrs : List String := ["job_id", "created_at", "filename", "content_type", "input_key"]

/-- The string attributes that a record may have. -/
def optionalStrs : List String :=
  ["updated_at", "started_at", "completed_at", "source_format", "error", "trace_id"]

/-- The integer attributes that a record may have. -/
def optionalInts : List String := ["source_width", "source_height", "processing_ms"]

structure Item.Typed (intOfStr : String → Option Int) (it : Item) : Prop where
  strs : ∀ a ∈ requiredStrs, ∃ v, it.get a = some (.s v)
  status : ∃ st : JobStatus, it.get "status" = some (.s st.value)
  size : ∃ n : Int, it.get "size_bytes" = some (.n n)
  optStrs : ∀ a ∈ optionalStrs, ∀ v, it.get a = some v → ∃ s, v = .s s
  optInts : ∀ a ∈ optionalInts, ∀ v, it.get a = some v → ∃ n : Int, v = .n n
  exif : ∀ v, it.get "exif" = some v → ∃ kvs, v = .m kvs
  outputs : ∀ v, it.get "outputs" = some v →
    ∃ kvs o, v = .m kvs ∧ Outputs.ofDict? intOfStr (fromDynamoDict kvs) = some o

/-- What a decoded record has to do with the item. -/
structure Decodes (intOfStr : String → Option Int) (it : Item) (r : JobRecord) : Prop where
  jobId : it.get "job_id" = some (.s r.jobId)
  status : it.get "status" = some (.s r.status.value)
  inputKey : it.get "input_key" = some (.s r.inputKey)
  outputs : ∀ kvs, it.get "outputs" = some (.m kvs) →
    r.outputs = Outputs.ofDict? intOfStr (fromDynamoDict kvs)

theorem JobRecord.decodes {intOfStr : String → Option Int} {it : Item} {r : JobRecord}
    (h : JobRecord.ofDict? intOfStr (fromDynamoDict it) = some r) : Decodes intOfStr it r := by
  unfold JobRecord.ofDict? at h
  obtain ⟨jobId, hid, h⟩ := Option.bind_eq_some_iff.mp h
  obtain ⟨status, hstatus, h⟩ := Option.bind_eq_some_iff.mp h
  obtain ⟨st, hst, hof⟩ := Option.bind_eq_some_iff.mp hstatus
  iterate 4 obtain ⟨_, -, h⟩ := Option.bind_eq_some_iff.mp h
  obtain ⟨inputKey, hkey, h⟩ := Option.bind_eq_some_iff.mp h
  iterate 3 obtain ⟨_, -, h⟩ := Option.bind_eq_some_iff.mp h
  obtain ⟨outputs, houts, h⟩ := Option.bind_eq_some_iff.mp h
  iterate 7 obtain ⟨_, -, h⟩ := Option.bind_eq_some_iff.mp h
  obtain rfl := Option.some.inj h
  refine ⟨get_of_readStr hid, ?_, get_of_readStr hkey, fun kvs hk => ?_⟩
  · rw [get_of_readStr hst, JobStatus.eq_value_of_ofValue? hof]
  · have hread := readOptDict_item fun v (hv : it.get "outputs" = some v) =>
      ⟨kvs, by rw [hk] at hv; exact (Option.some.inj hv).symm⟩
    simp only [readOutputs, hread, hk, Option.bind_some] at houts
    obtain ⟨o, ho, hout⟩ := Option.map_eq_some_iff.mp houts
    rw [ho]
    exact hout.symm

/-- Every field of `JobRecord` can be read out of the dict. -/
structure Reads (intOfStr : String → Option Int) (d : PyDict) : Prop where
  strs : ∀ a ∈ requiredStrs, ∃ v, readStr d a = some v
  status : ∃ st : JobStatus, (readStr d "status").bind JobStatus.ofValue? = some st
  size : ∃ n, readInt intOfStr d "size_bytes" = some n
  optStrs : ∀ a ∈ optionalStrs, ∃ o, readOptStr d a = some o
  optInts : ∀ a ∈ optionalInts, ∃ o, readOptInt intOfStr d a = some o
  exif : ∃ o, readOptDict d "exif" = some o
  outputs : ∃ o, readOutputs intOfStr d = some o

theorem reads_iff {intOfStr : String → Option Int} {d : PyDict} :
    Reads intOfStr d ↔ ∃ r, JobRecord.ofDict? intOfStr d = some r := by
  constructor
  · intro h
    obtain ⟨jobId, h₁⟩ := h.strs "job_id" (by decide)
    obtain ⟨st, h₂⟩ := h.status
    obtain ⟨createdAt, h₃⟩ := h.strs "created_at" (by decide)
    obtain ⟨filename, h₄⟩ := h.strs "filename" (by decide)
    obtain ⟨n, h₅⟩ := h.size
    obtain ⟨contentType, h₆⟩ := h.strs "content_type" (by decide)
    obtain ⟨inputKey, h₇⟩ := h.strs "input_key" (by decide)
    obtain ⟨updatedAt, h₈⟩ := h.optStrs "updated_at" (by decide)
    obtain ⟨startedAt, h₉⟩ := h.optStrs "started_at" (by decide)
    obtain ⟨completedAt, h₁₀⟩ := h.optStrs "completed_at" (by decide)
    obtain ⟨outputs, h₁₁⟩ := h.outputs
    obtain ⟨exif, h₁₂⟩ := h.exif
    obtain ⟨width, h₁₃⟩ := h.optInts "source_width" (by decide)
    obtain ⟨height, h₁₄⟩ := h.optInts "source_height" (by decide)
    obtain ⟨format, h₁₅⟩ := h.optStrs "source_format" (by decide)
    obtain ⟨ms, h₁₆⟩ := h.optInts "processing_ms" (by decide)
    obtain ⟨error, h₁₇⟩ := h.optStrs "error" (by decide)
    obtain ⟨traceId, h₁₈⟩ := h.optStrs "trace_id" (by decide)
    unfold JobRecord.ofDict?
    rw [h₁, h₂, h₃, h₄, h₅, h₆, h₇, h₈, h₉, h₁₀, h₁₁, h₁₂, h₁₃, h₁₄, h₁₅, h₁₆, h₁₇, h₁₈]
    exact ⟨_, rfl⟩
  · rintro ⟨r, h⟩
    unfold JobRecord.ofDict? at h
    obtain ⟨jobId, h₁, h⟩ := Option.bind_eq_some_iff.mp h
    obtain ⟨st, h₂, h⟩ := Option.bind_eq_some_iff.mp h
    obtain ⟨createdAt, h₃, h⟩ := Option.bind_eq_some_iff.mp h
    obtain ⟨filename, h₄, h⟩ := Option.bind_eq_some_iff.mp h
    obtain ⟨n, h₅, h⟩ := Option.bind_eq_some_iff.mp h
    obtain ⟨contentType, h₆, h⟩ := Option.bind_eq_some_iff.mp h
    obtain ⟨inputKey, h₇, h⟩ := Option.bind_eq_some_iff.mp h
    obtain ⟨updatedAt, h₈, h⟩ := Option.bind_eq_some_iff.mp h
    obtain ⟨startedAt, h₉, h⟩ := Option.bind_eq_some_iff.mp h
    obtain ⟨completedAt, h₁₀, h⟩ := Option.bind_eq_some_iff.mp h
    obtain ⟨outputs, h₁₁, h⟩ := Option.bind_eq_some_iff.mp h
    obtain ⟨exif, h₁₂, h⟩ := Option.bind_eq_some_iff.mp h
    obtain ⟨width, h₁₃, h⟩ := Option.bind_eq_some_iff.mp h
    obtain ⟨height, h₁₄, h⟩ := Option.bind_eq_some_iff.mp h
    obtain ⟨format, h₁₅, h⟩ := Option.bind_eq_some_iff.mp h
    obtain ⟨ms, h₁₆, h⟩ := Option.bind_eq_some_iff.mp h
    obtain ⟨error, h₁₇, h⟩ := Option.bind_eq_some_iff.mp h
    obtain ⟨traceId, h₁₈, -⟩ := Option.bind_eq_some_iff.mp h
    refine ⟨?_, ⟨st, h₂⟩, ⟨n, h₅⟩, ?_, ?_, ⟨exif, h₁₂⟩, ⟨outputs, h₁₁⟩⟩
    · simp only [requiredStrs, List.forall_mem_cons]
      exact ⟨⟨_, h₁⟩, ⟨_, h₃⟩, ⟨_, h₄⟩, ⟨_, h₆⟩, ⟨_, h₇⟩, fun _ h => absurd h List.not_mem_nil⟩
    · simp only [optionalStrs, List.forall_mem_cons]
      exact ⟨⟨_, h₈⟩, ⟨_, h₉⟩, ⟨_, h₁₀⟩, ⟨_, h₁₅⟩, ⟨_, h₁₇⟩, ⟨_, h₁₈⟩,
        fun _ h => absurd h List.not_mem_nil⟩
    · simp only [optionalInts, List.forall_mem_cons]
      exact ⟨⟨_, h₁₃⟩, ⟨_, h₁₄⟩, ⟨_, h₁₆⟩, fun _ h => absurd h List.not_mem_nil⟩

theorem Item.Typed.reads {intOfStr : String → Option Int} {it : Item} (h : it.Typed intOfStr) :
    Reads intOfStr (fromDynamoDict it) where
  strs a ha := (h.strs a ha).imp fun _ hv => readStr_item hv
  status := by
    obtain ⟨st, hst⟩ := h.status
    exact ⟨st, by rw [readStr_item hst, Option.bind_some, JobStatus.ofValue?_value]⟩
  size := h.size.imp fun _ hn => readInt_item hn
  optStrs a ha := readOptStr_item (h.optStrs a ha)
  optInts a ha := readOptInt_item (h.optInts a ha)
  exif := ⟨_, readOptDict_item h.exif⟩
  outputs := by
    have hread := readOptDict_item fun v hv => (h.outputs v hv).imp fun _ ⟨_, hm, _⟩ => hm
    unfold readOutputs
    rw [hread]
    cases hg : it.get "outputs" with
    | none => exact ⟨none, rfl⟩
    | some v =>
      obtain ⟨kvs, o, rfl, ho⟩ := h.outputs v hg
      exact ⟨some o, by simp [ho]⟩

theorem Item.Typed.decodable {intOfStr : String → Option Int} {it : Item}
    (h : it.Typed intOfStr) : ∃ r, JobRecord.ofDict? intOfStr (fromDynamoDict it) = some r :=
  reads_iff.mp h.reads

theorem Item.Typed.decodeItem {intOfStr : String → Option Int} {it : Item}
    (h : it.Typed intOfStr) :
    ∃ r, JobTable.decodeItem intOfStr (some it) = .ok (some r) ∧ Decodes intOfStr it r := by
  obtain ⟨r, hr⟩ := h.decodable
  refine ⟨r, ?_, JobRecord.decodes hr⟩
  cases it with
  | nil =>
    obtain ⟨v, hv⟩ := h.size
    cases hv
  | cons kv it => simp [JobTable.decodeItem, JobRecord.fromItem, hr, Except.map]

theorem decodes_of_decodeItem {intOfStr : String → Option Int} {i : Option Item} {r : JobRecord}
    (h : JobTable.decodeItem intOfStr i = .ok (some r)) :
    ∃ it, i = some it ∧ Decodes intOfStr it r := by
  unfold JobTable.decodeItem at h
  split at h
  · cases h
  · cases h
  · rename_i it _
    obtain ⟨r', hr', hrr⟩ := ok_of_map_ok h
    obtain rfl := Option.some.inj hrr
    unfold JobRecord.fromItem at hr'
    split at hr'
    · rename_i r'' hdec
      obtain rfl := Except.ok.inj hr'
      exact ⟨it, rfl, JobRecord.decodes hdec⟩
    · cases hr'

theorem Decodes.itemStatus {intOfStr : String → Option Int} {it : Item} {r : JobRecord}
    (h : Decodes intOfStr it r) : it.status = some r.status := Item.status_of_get h.status

/-! ## The updates keep items typed -/

theorem serialize_int {n : Int} {w : AttrValue} (h : (PyVal.int n).serialize = .ok w) :
    w = .n n := by
  unfold PyVal.serialize at h
  split at h
  · exact (Except.ok.inj h).symm
  · cases h

theorem ThumbnailOutput.roundtrip {intOfStr : String → Option Int} {t : ThumbnailOutput}
    (hx : t.extra = []) {kvs : Item} (h : serializeDict (toDynamoDict t.dump) = .ok kvs) :
    ThumbnailOutput.ofVal? intOfStr (.dict (fromDynamoDict kvs)) = some t := by
  obtain ⟨size, key, width, height, bytes, extra⟩ := t
  obtain rfl : extra = [] := hx
  obtain ⟨a₁, k₁, h₁, hs₁, rfl⟩ := serializeDict_cons h
  obtain ⟨a₂, k₂, h₂, hs₂, rfl⟩ := serializeDict_cons hs₁
  obtain ⟨a₃, k₃, h₃, hs₃, rfl⟩ := serializeDict_cons hs₂
  obtain ⟨a₄, k₄, h₄, hs₄, rfl⟩ := serializeDict_cons hs₃
  obtain ⟨a₅, k₅, h₅, hs₅, rfl⟩ := serializeDict_cons hs₄
  obtain rfl := Except.ok.inj hs₅
  obtain rfl := serialize_int h₁
  obtain rfl := Except.ok.inj h₂
  obtain rfl := serialize_int h₃
  obtain rfl := serialize_int h₄
  obtain rfl := serialize_int h₅
  simp only [fromDynamoDict, fromDynamo_int]
  rfl

/-- Outputs that are dumped, stored and read back are the same. -/
theorem Outputs.roundtrip {intOfStr : String → Option Int} {o : Outputs}
    (hx : ∀ kv ∈ o, kv.2.extra = []) {kvs : Item}
    (h : serializeDict (toDynamoDict (Outputs.dump o)) = .ok kvs) :
    Outputs.ofDict? intOfStr (fromDynamoDict kvs) = some o := by
  induction o generalizing kvs with
  | nil =>
    obtain rfl := Except.ok.inj h
    rfl
  | cons kv o ih =>
    obtain ⟨k, t⟩ := kv
    obtain ⟨a, rest, ha, hrest, rfl⟩ := serializeDict_cons h
    obtain ⟨tk, htk, rfl⟩ := ok_of_map_ok ha
    have ht : ThumbnailOutput.ofVal? intOfStr (.dict (fromDynamoDict tk)) = some t :=
      ThumbnailOutput.roundtrip (hx _ List.mem_cons_self) htk
    have ho := ih (fun kv hkv => hx kv (List.mem_cons_of_mem _ hkv)) hrest
    simp only [fromDynamoDict, AttrValue.fromDynamo, Outputs.ofDict?, ht, ho, Option.bind_eq_bind,
      Option.bind_some]
    rfl

/-- The outputs an update sets have no extra fields. -/
def Update.PlainOutputs (u : Update) : Prop :=
  ∀ v, u.set.lookup "outputs" = some v →
    ∃ o : Outputs, v = .dict (toDynamoDict o.dump) ∧ ∀ kv ∈ o, kv.2.extra = []

namespace Update.Known

variable {u : Update} {a : String} {v : PyVal}

theorem strs (hu : u.Known) (ha : a ∈ optionalStrs) (hv : u.set.lookup a = some v) :
    ∃ s, v = .str s := by
  simp only [optionalStrs, List.mem_cons, List.not_mem_nil, or_false] at ha
  cases hu <;> rcases ha with rfl | rfl | rfl | rfl | rfl | rfl <;>
    first | exact ⟨_, (Option.some.inj hv).symm⟩ | cases hv

theorem ints (hu : u.Known) (ha : a ∈ optionalInts) (hv : u.set.lookup a = some v) :
    ∃ n, v = .int n := by
  simp only [optionalInts, List.mem_cons, List.not_mem_nil, or_false] at ha
  cases hu <;> rcases ha with rfl | rfl | rfl <;>
    first | exact ⟨_, (Option.some.inj hv).symm⟩ | cases hv

theorem exif (hu : u.Known) (hv : u.set.lookup "exif" = some v) : ∃ kvs, v = .dict kvs := by
  cases hu <;> first | exact ⟨_, (Option.some.inj hv).symm⟩ | cases hv

theorem untouched (hu : u.Known) (ha : a ∈ "size_bytes" :: requiredStrs) :
    a ∉ u.set.map Prod.fst ∧ a ∉ u.remove := by
  simp only [requiredStrs, List.mem_cons, List.not_mem_nil, or_false] at ha
  cases hu with
  | processing now =>
    rw [processingUpdate_keys]
    rcases ha with rfl | rfl | rfl | rfl | rfl | rfl <;> exact ⟨by decide, List.not_mem_nil⟩
  | complete p ms now =>
    rw [completeUpdate_keys]
    rcases ha with rfl | rfl | rfl | rfl | rfl | rfl <;> exact ⟨by decide, by simp [completeUpdate]⟩
  | failed reason now =>
    rw [failedUpdate_keys]
    rcases ha with rfl | rfl | rfl | rfl | rfl | rfl <;> exact ⟨by decide, List.not_mem_nil⟩

theorem get_untouched (hu : u.Known) (ha : a ∈ "size_bytes" :: requiredStrs) {j : String}
    {it it' : Item} (h : u.apply j (some it) = .ok it') : it'.get a = it.get a :=
  Update.get_apply_of_not_mem h (hu.untouched ha).1 (hu.untouched ha).2

end Update.Known

/-- An attribute after an update, in three cases. -/
theorem Update.get_apply_cases {u : Update} {j : String} {it : Item} {it' : Item}
    (h : u.apply j (some it) = .ok it') (hn : (u.set.map Prod.fst).Nodup) (a : String) :
    it'.get a = none ∨ it'.get a = it.get a ∨
      ∃ v w, u.set.lookup a = some v ∧ v.serialize = .ok w ∧ it'.get a = some w := by
  have hget := Update.get_apply h hn a
  split at hget
  · exact .inl hget
  · cases hv : u.set.lookup a with
    | none => simp only [hv] at hget; exact .inr (.inl hget)
    | some v =>
      simp only [hv] at hget
      obtain ⟨w, hw, hout⟩ := hget
      exact .inr (.inr ⟨v, w, rfl, hw, hout⟩)

/-- **The updates keep items typed.** -/
theorem Item.Typed.update {intOfStr : String → Option Int} {it it' : Item}
    (ht : it.Typed intOfStr) {u : Update} (hu : u.Known) (ho : u.PlainOutputs) {j : String}
    (h : u.apply j (some it) = .ok it') : it'.Typed intOfStr where
  strs a ha := by
    rw [hu.get_untouched (List.mem_cons_of_mem _ ha) h]
    exact ht.strs a ha
  status := by
    obtain ⟨st, -, hl⟩ := hu.lookup_status
    exact ⟨st, Update.get_apply_str h hu.nodup (hu.kept (by decide)) hl⟩
  size := by
    rw [hu.get_untouched List.mem_cons_self h]
    exact ht.size
  optStrs a ha w hw := by
    obtain hn | hs | ⟨v, w', hv, hser, hg⟩ := Update.get_apply_cases h hu.nodup a
    · rw [hn] at hw
      cases hw
    · exact ht.optStrs a ha w (hs ▸ hw)
    · obtain ⟨s, rfl⟩ := hu.strs ha hv
      rw [hg] at hw
      exact ⟨s, (Option.some.inj hw).symm.trans (Except.ok.inj hser).symm⟩
  optInts a ha w hw := by
    obtain hn | hs | ⟨v, w', hv, hser, hg⟩ := Update.get_apply_cases h hu.nodup a
    · rw [hn] at hw
      cases hw
    · exact ht.optInts a ha w (hs ▸ hw)
    · obtain ⟨n, rfl⟩ := hu.ints ha hv
      rw [hg] at hw
      exact ⟨n, (Option.some.inj hw).symm.trans (serialize_int hser)⟩
  exif w hw := by
    obtain hn | hs | ⟨v, w', hv, hser, hg⟩ := Update.get_apply_cases h hu.nodup "exif"
    · rw [hn] at hw
      cases hw
    · exact ht.exif w (hs ▸ hw)
    · obtain ⟨kvs, rfl⟩ := hu.exif hv
      obtain ⟨k, -, rfl⟩ := ok_of_map_ok hser
      rw [hg] at hw
      exact ⟨k, (Option.some.inj hw).symm⟩
  outputs w hw := by
    obtain hn | hs | ⟨v, w', hv, hser, hg⟩ := Update.get_apply_cases h hu.nodup "outputs"
    · rw [hn] at hw
      cases hw
    · exact ht.outputs w (hs ▸ hw)
    · obtain ⟨o, rfl, hx⟩ := ho v hv
      obtain ⟨k, hk, rfl⟩ := ok_of_map_ok hser
      rw [hg] at hw
      exact ⟨k, o, (Option.some.inj hw).symm, Outputs.roundtrip hx hk⟩

/-! ## New records -/

/-- A record that no worker has written to. -/
structure JobRecord.Plain (r : JobRecord) : Prop where
  startedAt : r.startedAt = none
  outputs : r.outputs = none
  exif : r.exif = none
  processingMs : r.processingMs = none
  extra : r.extra = []

theorem toDynamoDict_append (a b : PyDict) :
    toDynamoDict (a ++ b) = toDynamoDict a ++ toDynamoDict b := by
  induction a with
  | nil => rfl
  | cons kv a ih =>
    obtain ⟨k, v⟩ := kv
    cases v <;> simp [toDynamoDict, ih]

theorem lookup_dumpOpt {α : Type} (name a : String) (f : α → PyVal) (hf : ∀ x, f x ≠ .none)
    (o : Option α) : (toDynamoDict (dumpOpt name f o)).lookup a =
      if a = name then o.map fun x => (f x).toDynamo else none := by
  cases o with
  | none => simp [dumpOpt, toDynamoDict]
  | some x =>
    have hx : toDynamoDict [(name, f x)] = [(name, (f x).toDynamo)] := by
      have hne := hf x
      cases hfx : f x <;> first | rfl | exact absurd hfx hne
    simp only [dumpOpt, hx, List.lookup_cons, List.lookup_nil]
    by_cases ha : a = name
    · simp [ha]
    · have hb : (a == name) = false := by simpa using ha
      simp [ha, hb]

/-- The attributes that a plain record may have or not. -/
def JobRecord.optional (r : JobRecord) : PyDict :=
  dumpOpt "updated_at" .str r.updatedAt ++ dumpOpt "completed_at" .str r.completedAt ++
  dumpOpt "source_width" .int r.sourceWidth ++ dumpOpt "source_height" .int r.sourceHeight ++
  dumpOpt "source_format" .str r.sourceFormat ++ dumpOpt "error" .str r.error ++
  dumpOpt "trace_id" .str r.traceId

theorem JobRecord.Plain.recordItem {r : JobRecord} (h : r.Plain) :
    JobTable.recordItem r =
      [("job_id", .str r.jobId), ("status", .str r.status.value), ("created_at", .str r.createdAt),
        ("filename", .str r.filename), ("size_bytes", .int r.sizeBytes),
        ("content_type", .str r.contentType), ("input_key", .str r.inputKey)] ++
      toDynamoDict r.optional := by
  unfold JobTable.recordItem JobRecord.toItem JobRecord.modelDump JobRecord.optional
  rw [h.startedAt, h.outputs, h.exif, h.processingMs, h.extra]
  simp only [dumpOpt, excludeNone, jsonModeDict, List.append_nil, List.append_assoc,
    toDynamoDict_append]
  rfl

/-- The first of two alternatives decides where only one of them applies. -/
theorem ite_or {α : Type} {p : Prop} [Decidable p] {x rest : Option α} (h : p → rest = none) :
    (if p then x else none).or rest = if p then x else rest := by
  split_ifs with hp
  · rw [h hp, Option.or_none]
  · exact Option.none_or

theorem JobRecord.lookup_optional (r : JobRecord) (a : String) :
    (toDynamoDict r.optional).lookup a =
      if a = "updated_at" then r.updatedAt.map .str
      else if a = "completed_at" then r.completedAt.map .str
      else if a = "source_width" then r.sourceWidth.map .int
      else if a = "source_height" then r.sourceHeight.map .int
      else if a = "source_format" then r.sourceFormat.map .str
      else if a = "error" then r.error.map .str
      else if a = "trace_id" then r.traceId.map .str
      else none := by
  have hs : ∀ name (o : Option String), (toDynamoDict (dumpOpt name .str o)).lookup a =
      if a = name then o.map .str else none := fun name o =>
    lookup_dumpOpt name a _ (fun _ h => by cases h) o
  have hi : ∀ name (o : Option Int), (toDynamoDict (dumpOpt name .int o)).lookup a =
      if a = name then o.map .int else none := fun name o =>
    lookup_dumpOpt name a _ (fun _ h => by cases h) o
  unfold JobRecord.optional
  simp only [toDynamoDict_append, List.lookup_append, hs, hi, Option.or_assoc]
  rw [ite_or, ite_or, ite_or, ite_or, ite_or, ite_or]
  all_goals
    rintro rfl
    simp

/-- What a written plain record is as an item. -/
structure JobRecord.StoredAs (r : JobRecord) (intOfStr : String → Option Int) (it : Item) :
    Prop where
  typed : it.Typed intOfStr
  jobId : it.get "job_id" = some (.s r.jobId)
  status : it.status = some r.status
  inputKey : it.get "input_key" = some (.s r.inputKey)
  completedAt : it.get "completed_at" = r.completedAt.map .s
  error : it.get "error" = r.error.map .s
  absent : ∀ a ∈ ["started_at", "outputs", "exif", "processing_ms"], it.get a = none

/-- The attributes every record has, as a written plain record shows them. -/
theorem JobRecord.Plain.required {r : JobRecord} (h : r.Plain) {it : Item}
    (hs : serializeDict (JobTable.recordItem r) = .ok it) :
    it.get "job_id" = some (.s r.jobId) ∧ it.get "status" = some (.s r.status.value) ∧
      it.get "created_at" = some (.s r.createdAt) ∧ it.get "filename" = some (.s r.filename) ∧
      it.get "size_bytes" = some (.n r.sizeBytes) ∧
      it.get "content_type" = some (.s r.contentType) ∧
      it.get "input_key" = some (.s r.inputKey) := by
  rw [h.recordItem] at hs
  obtain ⟨a₁, k₁, h₁, hs₁, rfl⟩ := serializeDict_cons hs
  obtain ⟨a₂, k₂, h₂, hs₂, rfl⟩ := serializeDict_cons hs₁
  obtain ⟨a₃, k₃, h₃, hs₃, rfl⟩ := serializeDict_cons hs₂
  obtain ⟨a₄, k₄, h₄, hs₄, rfl⟩ := serializeDict_cons hs₃
  obtain ⟨a₅, k₅, h₅, hs₅, rfl⟩ := serializeDict_cons hs₄
  obtain ⟨a₆, k₆, h₆, hs₆, rfl⟩ := serializeDict_cons hs₅
  obtain ⟨a₇, k₇, h₇, hs₇, rfl⟩ := serializeDict_cons hs₆
  obtain rfl := Except.ok.inj h₁
  obtain rfl := Except.ok.inj h₂
  obtain rfl := Except.ok.inj h₃
  obtain rfl := Except.ok.inj h₄
  obtain rfl := serialize_int h₅
  obtain rfl := Except.ok.inj h₆
  obtain rfl := Except.ok.inj h₇
  simp [Item.get_cons]

theorem serializeDict_get {kvs : PyDict} {it : Item} (hs : serializeDict kvs = .ok it) (a : String) :
    ∀ o, kvs.lookup a = o → match o with
      | none => it.get a = none
      | some v => ∃ w, v.serialize = .ok w ∧ it.get a = some w := by
  rintro _ rfl
  exact serializeDict_lookup hs a

theorem JobRecord.Plain.get_optional {r : JobRecord} (h : r.Plain) {it : Item}
    (hs : serializeDict (JobTable.recordItem r) = .ok it) {a : String}
    (ha : a ∉ ["job_id", "status", "created_at", "filename", "size_bytes", "content_type",
      "input_key"]) :
    match (toDynamoDict r.optional).lookup a with
    | none => it.get a = none
    | some v => ∃ w, v.serialize = .ok w ∧ it.get a = some w := by
  have hl : (JobTable.recordItem r).lookup a = (toDynamoDict r.optional).lookup a := by
    simp only [List.mem_cons, List.not_mem_nil, or_false, not_or] at ha
    rw [h.recordItem, List.lookup_append]
    simp [List.lookup_cons, beq_false_of_ne ha.1, beq_false_of_ne ha.2.1,
      beq_false_of_ne ha.2.2.1, beq_false_of_ne ha.2.2.2.1, beq_false_of_ne ha.2.2.2.2.1,
      beq_false_of_ne ha.2.2.2.2.2.1, beq_false_of_ne ha.2.2.2.2.2.2]
  exact serializeDict_get hs a _ hl

section PlainAttributes

variable {r : JobRecord} {it : Item} {a : String}

theorem JobRecord.Plain.get_absent (h : r.Plain)
    (hs : serializeDict (JobTable.recordItem r) = .ok it)
    (ha : a ∈ ["started_at", "outputs", "exif", "processing_ms"]) : it.get a = none := by
  have hl : (toDynamoDict r.optional).lookup a = none := by
    rw [r.lookup_optional]
    simp only [List.mem_cons, List.not_mem_nil, or_false] at ha
    rcases ha with rfl | rfl | rfl | rfl <;> simp
  have hg := h.get_optional hs (a := a) (by
    simp only [List.mem_cons, List.not_mem_nil, or_false] at ha
    rcases ha with rfl | rfl | rfl | rfl <;> decide)
  simpa only [hl] using hg

theorem JobRecord.Plain.get_str (h : r.Plain)
    (hs : serializeDict (JobTable.recordItem r) = .ok it)
    (ha : a ∉ ["job_id", "status", "created_at", "filename", "size_bytes", "content_type",
      "input_key"]) (o : Option String)
    (hl : (toDynamoDict r.optional).lookup a = o.map .str) : it.get a = o.map .s := by
  have hg := h.get_optional hs ha
  rw [hl] at hg
  cases o with
  | none => exact hg
  | some v =>
    obtain ⟨w, hw, hout⟩ := hg
    rw [hout, ← Except.ok.inj hw]
    rfl

theorem JobRecord.Plain.get_int (h : r.Plain)
    (hs : serializeDict (JobTable.recordItem r) = .ok it)
    (ha : a ∉ ["job_id", "status", "created_at", "filename", "size_bytes", "content_type",
      "input_key"]) (o : Option Int)
    (hl : (toDynamoDict r.optional).lookup a = o.map .int) (v : AttrValue)
    (hv : it.get a = some v) : ∃ n : Int, v = .n n := by
  have hg := h.get_optional hs ha
  rw [hl] at hg
  cases o with
  | none =>
    rw [show it.get a = none from hg] at hv
    cases hv
  | some n =>
    obtain ⟨w, hw, hout⟩ := hg
    rw [hout] at hv
    exact ⟨n, (Option.some.inj hv).symm.trans (serialize_int hw)⟩

end PlainAttributes

theorem JobRecord.Plain.typed {r : JobRecord} (h : r.Plain) {intOfStr : String → Option Int}
    {it : Item} (hs : serializeDict (JobTable.recordItem r) = .ok it) : it.Typed intOfStr := by
  obtain ⟨hid, hst, hcreated, hfile, hsize, htype, hkey⟩ := h.required hs
  have habsent : ∀ a ∈ ["started_at", "outputs", "exif", "processing_ms"], ∀ v,
      it.get a ≠ some v := fun a ha v hv => by rw [h.get_absent hs ha] at hv; cases hv
  refine ⟨fun a ha => ?_, ⟨r.status, hst⟩, ⟨r.sizeBytes, hsize⟩, fun a ha v hv => ?_,
    fun a ha v hv => ?_, fun v hv => absurd hv (habsent _ (by decide) v),
    fun v hv => absurd hv (habsent _ (by decide) v)⟩
  · simp only [requiredStrs, List.mem_cons, List.not_mem_nil, or_false] at ha
    rcases ha with rfl | rfl | rfl | rfl | rfl
    exacts [⟨_, hid⟩, ⟨_, hcreated⟩, ⟨_, hfile⟩, ⟨_, htype⟩, ⟨_, hkey⟩]
  · have hmap : ∀ o : Option String, a ∉ ["job_id", "status", "created_at", "filename",
        "size_bytes", "content_type", "input_key"] →
        (toDynamoDict r.optional).lookup a = o.map .str → ∃ s, v = .s s := by
      intro o ha hl
      rw [h.get_str hs ha o hl] at hv
      obtain ⟨s, -, hs⟩ := Option.map_eq_some_iff.mp hv
      exact ⟨s, hs.symm⟩
    simp only [optionalStrs, List.mem_cons, List.not_mem_nil, or_false] at ha
    rcases ha with rfl | rfl | rfl | rfl | rfl | rfl
    · exact hmap r.updatedAt (by decide) (by simp [r.lookup_optional])
    · exact absurd hv (habsent _ (by decide) v)
    · exact hmap r.completedAt (by decide) (by simp [r.lookup_optional])
    · exact hmap r.sourceFormat (by decide) (by simp [r.lookup_optional])
    · exact hmap r.error (by decide) (by simp [r.lookup_optional])
    · exact hmap r.traceId (by decide) (by simp [r.lookup_optional])
  · simp only [optionalInts, List.mem_cons, List.not_mem_nil, or_false] at ha
    rcases ha with rfl | rfl | rfl
    · exact h.get_int hs (by decide) r.sourceWidth (by simp [r.lookup_optional]) v hv
    · exact h.get_int hs (by decide) r.sourceHeight (by simp [r.lookup_optional]) v hv
    · exact absurd hv (habsent _ (by decide) v)

/-- **A written plain record decodes**, and shows nothing of a worker. -/
theorem JobRecord.Plain.storedAs {r : JobRecord} (h : r.Plain) {intOfStr : String → Option Int}
    {it : Item} (hs : serializeDict (JobTable.recordItem r) = .ok it) :
    r.StoredAs intOfStr it where
  typed := h.typed hs
  jobId := (h.required hs).1
  status := Item.status_of_get (h.required hs).2.1
  inputKey := (h.required hs).2.2.2.2.2.2
  completedAt := h.get_str hs (by decide) r.completedAt (by simp [r.lookup_optional])
  error := h.get_str hs (by decide) r.error (by simp [r.lookup_optional])
  absent _ ha := h.get_absent hs ha

theorem newRecord_plain (ext : Externals) (u : Upload) (probe : ImageProbe) (jobId : String)
    (traceId : Option String) (createdAt updatedAt : String) :
    (JobService.newRecord ext u probe jobId traceId createdAt updatedAt).Plain :=
  ⟨rfl, rfl, rfl, rfl, rfl⟩

theorem unqueueable_plain {r : JobRecord} (h : r.Plain) (e : Exc) (updatedAt completedAt : String) :
    (JobService.unqueueable r e updatedAt completedAt).Plain :=
  ⟨h.startedAt, h.outputs, h.exif, h.processingMs, h.extra⟩

end PixelForge
