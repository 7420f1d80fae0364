import PixelForge.Shared.Aws

/-! # What a write does to an item

`get_update` reads an attribute off an updated item, and `processing_get`, `complete_get` and
`failed_get` say it for the three updates of the table. `Cloud.status` is the status of a job.
-/
set_option autoImplicit false

namespace PixelForge

/-! ## Serialised dictionaries -/

theorem serializeDict_cons {k : String} {v : PyVal} {kvs : PyDict} {out : Item}
    (h : serializeDict ((k, v) :: kvs) = .ok out) :
    ∃ a rest, v.serialize = .ok a ∧ serializeDict kvs = .ok rest ∧ out = (k, a) :: rest := by
  unfold serializeDict at h
  split at h
  · cases h
  · rename_i a ha
    obtain ⟨rest, hrest, rfl⟩ := ok_of_map_ok h
    exact ⟨a, rest, ha, hrest, rfl⟩

theorem serializeDict_keys {kvs : PyDict} {out : Item} (h : serializeDict kvs = .ok out) :
    out.map Prod.fst = kvs.map Prod.fst := by
  induction kvs generalizing out with
  | nil =>
    cases h
    rfl
  | cons kv kvs ih =>
    obtain ⟨a, rest, -, hrest, rfl⟩ := serializeDict_cons h
    simp [ih hrest]

theorem serializeDict_lookup {kvs : PyDict} {out : Item} (h : serializeDict kvs = .ok out)
    (name : String) :
    match kvs.lookup name with
    | none => out.lookup name = none
    | some v => ∃ a, v.serialize = .ok a ∧ out.lookup name = some a := by
  induction kvs generalizing out with
  | nil =>
    cases h
    rfl
  | cons kv kvs ih =>
    obtain ⟨k, v⟩ := kv
    obtain ⟨a, rest, ha, hrest, rfl⟩ := serializeDict_cons h
    simp only [List.lookup_cons]
    cases hk : name == k with
    | true => exact ⟨a, ha, rfl⟩
    | false => exact ih hrest

theorem serializeDict_str {kvs : PyDict} {out : Item} (h : serializeDict kvs = .ok out)
    {name s : String} (hl : kvs.lookup name = some (.str s)) : out.lookup name = some (.s s) := by
  have h' := serializeDict_lookup h name
  simp only [hl] at h'
  obtain ⟨a, ha, hout⟩ := h'
  cases ha
  exact hout

/-! ## Updates -/

theorem Item.get_sets (sets : List (String × AttrValue)) (hn : (sets.map Prod.fst).Nodup)
    (it : Item) (a : String) :
    (sets.foldl (fun it kv => it.set kv.1 kv.2) it).get a = (sets.lookup a).or (it.get a) := by
  induction sets generalizing it with
  | nil => rfl
  | cons kv sets ih =>
    obtain ⟨k, v⟩ := kv
    rw [List.map_cons, List.nodup_cons] at hn
    rw [List.foldl_cons, ih hn.2, Item.get_set, List.lookup_cons]
    by_cases ha : a = k
    · have hnone : sets.lookup k = none := by
        rw [List.lookup_eq_none_iff]
        rintro ⟨k', v'⟩ hmem
        have hne : k ≠ k' := fun h => hn.1 (List.mem_map.mpr ⟨(k', v'), hmem, h.symm⟩)
        simpa using hne
      subst ha
      simp [hnone]
    · have hb : (a == k) = false := by simpa using ha
      simp [hb, ha]

theorem Item.get_removes (removes : List String) (it : Item) (a : String) :
    (removes.foldl Item.remove it).get a = if a ∈ removes then none else it.get a := by
  induction removes generalizing it with
  | nil => rfl
  | cons r removes ih =>
    rw [List.foldl_cons, ih, Item.get_remove]
    by_cases ha : a = r
    · simp [ha]
    · simp [ha]

theorem Item.get_update (sets : List (String × AttrValue)) (removes : List String)
    (hn : (sets.map Prod.fst).Nodup) (it : Item) (a : String) :
    (it.update sets removes).get a =
      if a ∈ removes then none else (sets.lookup a).or (it.get a) := by
  rw [Item.update, get_removes, get_sets sets hn]

/-- The item an update starts from. -/
def baseItem (j : String) (it : Option Item) : Item := it.getD [("job_id", .s j)]

theorem Update.apply_ok {u : Update} {j : String} {it : Option Item} {it' : Item}
    (h : u.apply j it = .ok it') :
    ∃ sets, serializeDict u.set = .ok sets ∧ (∀ c, u.condition = some c → c.holds it = true) ∧
      it' = (baseItem j it).update sets u.remove := by
  unfold Update.apply at h
  split at h
  · cases h
  · rename_i sets hs
    split at h
    · rename_i hc
      refine ⟨sets, hs, fun c hcond => ?_, (Except.ok.inj h).symm⟩
      simpa [hcond] using hc
    · cases h

theorem Update.get_apply {u : Update} {j : String} {it : Option Item} {it' : Item}
    (h : u.apply j it = .ok it') (hn : (u.set.map Prod.fst).Nodup) (a : String) :
    if a ∈ u.remove then it'.get a = none
    else match u.set.lookup a with
      | none => it'.get a = (baseItem j it).get a
      | some v => ∃ w, v.serialize = .ok w ∧ it'.get a = some w := by
  obtain ⟨sets, hs, -, rfl⟩ := Update.apply_ok h
  have hget := Item.get_update sets u.remove (serializeDict_keys hs ▸ hn) (baseItem j it) a
  split
  · rename_i ha
    rw [hget, if_pos ha]
  · rename_i ha
    rw [hget, if_neg ha]
    have hl := serializeDict_lookup hs a
    cases hv : u.set.lookup a with
    | none =>
      simp only [hv] at hl
      simp [hl]
    | some v =>
      simp only [hv] at hl
      obtain ⟨w, hw, hout⟩ := hl
      exact ⟨w, hw, by simp [hout]⟩

theorem Update.get_apply_of_not_mem {u : Update} {j : String} {it : Option Item} {it' : Item}
    (h : u.apply j it = .ok it') {a : String} (hs : a ∉ u.set.map Prod.fst) (hr : a ∉ u.remove) :
    it'.get a = (baseItem j it).get a := by
  obtain ⟨sets, hsets, -, rfl⟩ := Update.apply_ok h
  exact Item.get_update_of_not_mem sets u.remove a (serializeDict_keys hsets ▸ hs) hr _

theorem Update.get_apply_str {u : Update} {j : String} {it : Option Item} {it' : Item}
    (h : u.apply j it = .ok it') (hn : (u.set.map Prod.fst).Nodup) {a s : String}
    (hr : a ∉ u.remove) (hl : u.set.lookup a = some (.str s)) : it'.get a = some (.s s) := by
  have h' := Update.get_apply h hn a
  rw [if_neg hr] at h'
  simp only [hl] at h'
  obtain ⟨w, hw, hget⟩ := h'
  cases hw
  exact hget

@[simp] theorem processingUpdate_keys (now : String) :
    (processingUpdate now).set.map Prod.fst = ["status", "started_at", "updated_at"] := rfl

@[simp] theorem completeUpdate_keys (p : ProcessedOutputs) (ms : Int) (now : String) :
    (completeUpdate p ms now).set.map Prod.fst =
      ["status", "outputs", "exif", "source_width", "source_height", "source_format",
        "processing_ms", "completed_at", "updated_at"] := rfl

@[simp] theorem failedUpdate_keys (reason now : String) :
    (failedUpdate reason now).set.map Prod.fst =
      ["status", "error", "completed_at", "updated_at"] := rfl

/-- The three updates of the code. -/
inductive Update.Known : Update → Prop
  | processing (now : String) : Known (processingUpdate now)
  | complete (p : ProcessedOutputs) (ms : Int) (now : String) : Known (completeUpdate p ms now)
  | failed (reason now : String) : Known (failedUpdate reason now)

theorem Update.Known.nodup {u : Update} (hu : u.Known) : (u.set.map Prod.fst).Nodup := by
  cases hu with
  | processing now =>
    rw [processingUpdate_keys]
    decide
  | complete p ms now =>
    rw [completeUpdate_keys]
    decide
  | failed reason now =>
    rw [failedUpdate_keys]
    decide

/-- Only `mark_complete` removes an attribute, `error`. -/
theorem Update.Known.kept {u : Update} (hu : u.Known) {a : String} (ha : a ≠ "error") :
    a ∉ u.remove := by
  cases hu with
  | processing now => exact List.not_mem_nil
  | complete p ms now => exact fun h => ha (List.mem_singleton.mp h)
  | failed reason now => exact List.not_mem_nil

/-! ## The status of a job -/

/-- The status that a stored item shows. -/
def Item.status (it : Item) : Option JobStatus :=
  match it.get "status" with
  | some (.s v) => JobStatus.ofValue? v
  | _ => none

/-- The status of a job in the table. -/
def Cloud.status (s : Cloud) (j : String) : Option JobStatus := (s.table j).bind Item.status

theorem Item.status_of_get {it : Item} {st : JobStatus} (h : it.get "status" = some (.s st.value)) :
    it.status = some st := by
  simp only [Item.status, h, JobStatus.ofValue?_value]

theorem Item.get_of_status {it : Item} {st : JobStatus} (h : it.status = some st) :
    it.get "status" = some (.s st.value) := by
  unfold Item.status at h
  split at h
  · rename_i v hv
    rw [hv, JobStatus.eq_value_of_ofValue? h]
  · cases h

theorem Update.Known.lookup_status {u : Update} (hu : u.Known) :
    ∃ st : JobStatus, u.target = some st ∧ u.set.lookup "status" = some (.str st.value) := by
  cases hu with
  | processing now => exact ⟨.processing, rfl, rfl⟩
  | complete p ms now => exact ⟨.complete, rfl, rfl⟩
  | failed reason now => exact ⟨.failed, rfl, rfl⟩

theorem Update.Known.status {u : Update} (hu : u.Known) {j : String} {it : Option Item}
    {it' : Item} (h : u.apply j it = .ok it') : it'.status = u.target := by
  obtain ⟨st, ht, hl⟩ := hu.lookup_status
  rw [ht]
  exact Item.status_of_get (Update.get_apply_str h hu.nodup (hu.kept (by decide)) hl)

theorem processing_condition {now j : String} {it : Option Item} {it' : Item}
    (h : (processingUpdate now).apply j it = .ok it') :
    ∃ i, it = some i ∧ i.status ≠ some .complete := by
  obtain ⟨-, -, hc, -⟩ := Update.apply_ok h
  have hc := hc _ rfl
  simp only [Condition.holds, Bool.and_eq_true] at hc
  cases it with
  | none => simp at hc
  | some i =>
    refine ⟨i, rfl, fun hst => ?_⟩
    have hget := Item.get_of_status hst
    simp [hget] at hc

theorem processing_applies (now j : String) {i : Item} {st : JobStatus}
    (hid : (i.get "job_id").isSome = true) (hst : i.status = some st) (hne : st ≠ .complete) :
    ∃ it', (processingUpdate now).apply j (some i) = .ok it' := by
  have hvalue : st.value ≠ JobStatus.complete.value := by
    revert hne
    cases st <;> decide
  have hcond : (processingUpdate now).condition.all (·.holds (some i)) = true := by
    simp [processingUpdate, Condition.holds, hid, Item.get_of_status hst, hvalue]
  obtain ⟨sets, hs⟩ : ∃ sets, serializeDict (processingUpdate now).set = .ok sets := ⟨_, rfl⟩
  refine ⟨(baseItem j (some i)).update sets [], ?_⟩
  unfold Update.apply
  simp only [hs, hcond, if_true]
  rfl

/-- A false condition of `mark_processing` means that the job is `COMPLETE` or that no item with a
`job_id` is stored. -/
theorem processing_lost {now j : String} {it : Option Item} {e : Exc}
    (h : (processingUpdate now).apply j it = .error e) (he : e.isConditionFailed = true) :
    (it.bind fun i => i.get "job_id") = none ∨ it.bind Item.status = some .complete := by
  unfold Update.apply at h
  split at h
  · rename_i hs
    cases h
    obtain ⟨cls, text, rfl⟩ := serializeDict_error _ hs
    cases he
  · split at h
    · cases h
    · rename_i hc
      simp only [processingUpdate, Option.all_some, Condition.holds, Bool.and_eq_true,
        not_and_or, Bool.not_eq_true] at hc
      obtain hc | hc := hc
      · left
        simpa using hc
      · right
        split at hc
        · rename_i v hv
          obtain ⟨i, rfl, hi⟩ := Option.bind_eq_some_iff.mp hv
          have hv' : v = JobStatus.complete.value := by simpa using hc
          exact Item.status_of_get (hv' ▸ hi)
        · cases hc

end PixelForge
