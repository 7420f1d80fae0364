import PixelForge.Effects.Replay
import PixelForge.Shared.Records
import PixelForge.Shared.Surroundings

/-! # The item codec

What `_to_dynamo`, boto3 and `_from_dynamo` make of a value together: `PyVal.canon` drops the
`None`-valued entries of maps, writes whole numbers as `int`s and tuples as lists, and that is all.
For records, whose values of type `Any` are dumped with `mode="json"` first, `JobRecord.canon` is what
`get_job` returns after `put_job`.
-/
set_option autoImplicit false

namespace PixelForge
open Effects

/-! ## Values -/

mutual
/-- A value up to `None`-valued map entries and the type of a number or a sequence. -/
def PyVal.canon : PyVal → PyVal
  | .float (.finite q) => if q.den = 1 then .int q.num else .float (.finite q)
  | .decimal (.finite q) => if q.den = 1 then .int q.num else .float (.finite q)
  | .list vs => .list (canonList vs)
  | .tuple vs => .list (canonList vs)
  | .dict kvs => .dict (canonDict kvs)
  | v => v

def canonList : List PyVal → List PyVal
  | [] => []
  | v :: vs => v.canon :: canonList vs

def canonDict : PyDict → PyDict
  | [] => []
  | (_, .none) :: kvs => canonDict kvs
  | (k, v) :: kvs => (k, v.canon) :: canonDict kvs
end

mutual
/-- Strings, booleans, integers of at most 38 digits, finite floats in range, lists and maps. -/
def PyVal.Storable : PyVal → Prop
  | .none => True
  | .bool _ => True
  | .int n => n.natAbs < 10 ^ 38
  | .float (.finite q) => inDynamoRange q = true
  | .float _ => False
  | .decimal (.finite q) => inDynamoRange q = true
  | .decimal _ => False
  | .str _ => True
  | .list vs => StorableList vs
  | .tuple vs => StorableList vs
  | .dict kvs => StorableDict kvs

def StorableList : List PyVal → Prop
  | [] => True
  | v :: vs => v.Storable ∧ StorableList vs

def StorableDict : PyDict → Prop
  | [] => True
  | (_, v) :: kvs => v.Storable ∧ StorableDict kvs
end

theorem PyVal.storable_str (s : String) : (PyVal.str s).Storable := by simp only [PyVal.Storable]

theorem toDynamoDict_cons {v : PyVal} (hv : v ≠ .none) (k : String) (kvs : PyDict) :
    toDynamoDict ((k, v) :: kvs) = (k, v.toDynamo) :: toDynamoDict kvs := by
  cases v <;> first | rfl | exact absurd rfl hv

theorem canonDict_cons {v : PyVal} (hv : v ≠ .none) (k : String) (kvs : PyDict) :
    canonDict ((k, v) :: kvs) = (k, v.canon) :: canonDict kvs := by
  cases v <;> first | rfl | exact absurd rfl hv

mutual
/-- What is stored of a value is read back as its `canon`. -/
theorem PyVal.fromDynamo_serialize :
    ∀ (v : PyVal) (a : AttrValue), v.toDynamo.serialize = .ok a → a.fromDynamo = v.canon
  | .none, a, h => by
      obtain rfl := Except.ok.inj h
      rfl
  | .bool b, a, h => by
      obtain rfl := Except.ok.inj h
      rfl
  | .str s, a, h => by
      obtain rfl := Except.ok.inj h
      rfl
  | .int n, a, h => by
      obtain rfl := serialize_int h
      exact fromDynamo_int n
  | .float .nan, a, h => by cases h
  | .float (.inf _), a, h => by cases h
  | .float (.finite q), a, h => by
      simp only [PyVal.toDynamo, PyVal.serialize] at h
      split at h
      · obtain rfl := Except.ok.inj h
        rfl
      · cases h
  | .decimal .nan, a, h => by cases h
  | .decimal (.inf _), a, h => by cases h
  | .decimal (.finite q), a, h => by
      simp only [PyVal.toDynamo, PyVal.serialize] at h
      split at h
      · obtain rfl := Except.ok.inj h
        rfl
      · cases h
  | .list vs, a, h => by
      obtain ⟨as, has, rfl⟩ := ok_of_map_ok h
      have hback := fromDynamoList_serialize vs as has
      simp only [AttrValue.fromDynamo, PyVal.canon, hback]
  | .tuple vs, a, h => by
      obtain ⟨as, has, rfl⟩ := ok_of_map_ok h
      have hback := fromDynamoList_serialize vs as has
      simp only [AttrValue.fromDynamo, PyVal.canon, hback]
  | .dict kvs, a, h => by
      obtain ⟨as, has, rfl⟩ := ok_of_map_ok h
      have hback := fromDynamoDict_serialize kvs as has
      simp only [AttrValue.fromDynamo, PyVal.canon, hback]

theorem fromDynamoList_serialize :
    ∀ (vs : List PyVal) (as : List AttrValue),
      serializeList (toDynamoList vs) = .ok as → fromDynamoList as = canonList vs
  | [], as, h => by
      obtain rfl := Except.ok.inj h
      rfl
  | v :: vs, as, h => by
      simp only [toDynamoList, serializeList] at h
      split at h
      · cases h
      · rename_i a ha
        obtain ⟨rest, hrest, rfl⟩ := ok_of_map_ok h
        have hback := PyVal.fromDynamo_serialize v a ha
        have hbacks := fromDynamoList_serialize vs rest hrest
        simp only [fromDynamoList, canonList, hback, hbacks]

theorem fromDynamoDict_serialize :
    ∀ (kvs : PyDict) (as : Item),
      serializeDict (toDynamoDict kvs) = .ok as → fromDynamoDict as = canonDict kvs
  | [], as, h => by
      obtain rfl := Except.ok.inj h
      rfl
  | (k, v) :: kvs, as, h => by
      by_cases hnone : v = .none
      · subst hnone
        have hbacks := fromDynamoDict_serialize kvs as (by simpa only [toDynamoDict] using h)
        simpa only [canonDict] using hbacks
      · rw [toDynamoDict_cons hnone k kvs] at h
        obtain ⟨a, rest, ha, hrest, rfl⟩ := serializeDict_cons h
        have hback := PyVal.fromDynamo_serialize v a ha
        have hbacks := fromDynamoDict_serialize kvs rest hrest
        rw [canonDict_cons hnone k kvs, fromDynamoDict, hback, hbacks]
end

theorem exists_map_ok_iff {α β : Type} {x : Except Exc α} {f : α → β} :
    (∃ b, x.map f = .ok b) ↔ ∃ a, x = .ok a := by
  cases x with
  | error e => exact iff_of_false (fun ⟨_, h⟩ => nomatch h) fun ⟨_, h⟩ => nomatch h
  | ok a => exact iff_of_true ⟨f a, rfl⟩ ⟨a, rfl⟩

theorem serializeDict_cons_iff (k : String) (v : PyVal) (kvs : PyDict) :
    (∃ it, serializeDict ((k, v) :: kvs) = .ok it) ↔
      (∃ a, v.serialize = .ok a) ∧ ∃ it, serializeDict kvs = .ok it := by
  rw [serializeDict]
  cases v.serialize with
  | error e => simp
  | ok a => simpa using exists_map_ok_iff

mutual
/-- boto3 takes the storable values and no others. -/
theorem PyVal.storable_iff : ∀ v : PyVal, v.Storable ↔ ∃ a, v.toDynamo.serialize = .ok a
  | .none => iff_of_true (by simp only [PyVal.Storable]) ⟨.null, rfl⟩
  | .bool b => iff_of_true (by simp only [PyVal.Storable]) ⟨.bool b, rfl⟩
  | .str s => iff_of_true (PyVal.storable_str s) ⟨.s s, rfl⟩
  | .int n => by
      simp only [PyVal.Storable, PyVal.toDynamo, PyVal.serialize]
      split
      · rename_i hn
        exact iff_of_true hn ⟨_, rfl⟩
      · rename_i hn
        exact iff_of_false hn fun ⟨_, h⟩ => nomatch h
  | .float (.finite q) => by
      simp only [PyVal.Storable, PyVal.toDynamo, PyVal.serialize]
      cases inDynamoRange q <;> simp
  | .float .nan => by simp [PyVal.Storable, PyVal.toDynamo, PyVal.serialize]
  | .float (.inf _) => by simp [PyVal.Storable, PyVal.toDynamo, PyVal.serialize]
  | .decimal (.finite q) => by
      simp only [PyVal.Storable, PyVal.toDynamo, PyVal.serialize]
      cases inDynamoRange q <;> simp
  | .decimal .nan => by simp [PyVal.Storable, PyVal.toDynamo, PyVal.serialize]
  | .decimal (.inf _) => by simp [PyVal.Storable, PyVal.toDynamo, PyVal.serialize]
  | .list vs => by
      simp only [PyVal.Storable, PyVal.toDynamo, PyVal.serialize]
      exact (storableList_serialize_iff vs).trans exists_map_ok_iff.symm
  | .tuple vs => by
      simp only [PyVal.Storable, PyVal.toDynamo, PyVal.serialize]
      exact (storableList_serialize_iff vs).trans exists_map_ok_iff.symm
  | .dict kvs => by
      simp only [PyVal.Storable, PyVal.toDynamo, PyVal.serialize]
      exact (storableDict_serialize_iff kvs).trans exists_map_ok_iff.symm

theorem storableList_serialize_iff :
    ∀ vs : List PyVal, StorableList vs ↔ ∃ as, serializeList (toDynamoList vs) = .ok as
  | [] => iff_of_true (by simp only [StorableList]) ⟨[], rfl⟩
  | v :: vs => by
      have hv := PyVal.storable_iff v
      have hvs := storableList_serialize_iff vs
      simp only [StorableList, toDynamoList, serializeList, hv, hvs]
      cases v.toDynamo.serialize with
      | error e => simp
      | ok a => simpa using exists_map_ok_iff.symm

theorem storableDict_serialize_iff :
    ∀ kvs : PyDict, StorableDict kvs ↔ ∃ it, serializeDict (toDynamoDict kvs) = .ok it
  | [] => iff_of_true (by simp only [StorableDict]) ⟨[], rfl⟩
  | (k, v) :: kvs => by
      have hv := PyVal.storable_iff v
      have hkvs := storableDict_serialize_iff kvs
      by_cases hnone : v = .none
      · subst hnone
        simp only [StorableDict, PyVal.Storable, true_and, toDynamoDict, hkvs]
      · rw [StorableDict, hv, hkvs, toDynamoDict_cons hnone k kvs, serializeDict_cons_iff]
end

theorem canonDict_append (a b : PyDict) : canonDict (a ++ b) = canonDict a ++ canonDict b := by
  induction a with
  | nil => rfl
  | cons kv a ih =>
    obtain ⟨k, v⟩ := kv
    by_cases hv : v = .none
    · subst hv
      simpa only [List.cons_append, canonDict] using ih
    · rw [List.cons_append, canonDict_cons hv, canonDict_cons hv, ih, List.cons_append]

theorem PyVal.canon_ne_none {v : PyVal} (hv : v ≠ .none) : v.canon ≠ .none := by
  have hnum : ∀ q : Rat,
      (if q.den = 1 then PyVal.int q.num else .float (.finite q)) ≠ .none := by
    intro q
    split <;> exact fun h => by cases h
  cases v with
  | none => exact absurd rfl hv
  | float x =>
    cases x with
    | finite q => simpa only [PyVal.canon] using hnum q
    | _ => exact fun h => by cases h
  | decimal x =>
    cases x with
    | finite q => simpa only [PyVal.canon] using hnum q
    | _ => exact fun h => by cases h
  | _ => exact fun h => by cases h

theorem canon_number (q : Rat) :
    (if q.den = 1 then PyVal.int q.num else .float (.finite q)).canon =
      if q.den = 1 then .int q.num else .float (.finite q) := by
  by_cases hq : q.den = 1
  · simp only [if_pos hq, PyVal.canon]
  · simp only [if_neg hq, PyVal.canon]

mutual
theorem PyVal.canon_canon : ∀ v : PyVal, v.canon.canon = v.canon
  | .none => rfl
  | .bool _ => rfl
  | .int _ => rfl
  | .str _ => rfl
  | .decimal .nan => rfl
  | .decimal (.inf _) => rfl
  | .decimal (.finite q) => canon_number q
  | .float .nan => rfl
  | .float (.inf _) => rfl
  | .float (.finite q) => canon_number q
  | .list vs => by
      have h := canonList_canonList vs
      simp only [PyVal.canon, h]
  | .tuple vs => by
      have h := canonList_canonList vs
      simp only [PyVal.canon, h]
  | .dict kvs => by
      have h := canonDict_canonDict kvs
      simp only [PyVal.canon, h]

theorem canonList_canonList : ∀ vs : List PyVal, canonList (canonList vs) = canonList vs
  | [] => rfl
  | v :: vs => by
      have hv := PyVal.canon_canon v
      have hvs := canonList_canonList vs
      simp only [canonList, hv, hvs]

theorem canonDict_canonDict : ∀ kvs : PyDict, canonDict (canonDict kvs) = canonDict kvs
  | [] => rfl
  | (k, v) :: kvs => by
      have hv := PyVal.canon_canon v
      have hkvs := canonDict_canonDict kvs
      by_cases hnone : v = .none
      · subst hnone
        simpa only [canonDict] using hkvs
      · rw [canonDict_cons hnone, canonDict_cons (PyVal.canon_ne_none hnone), hv, hkvs]
end

theorem storableDict_iff (kvs : PyDict) : StorableDict kvs ↔ ∀ kv ∈ kvs, kv.2.Storable := by
  induction kvs with
  | nil => simp [StorableDict]
  | cons kv kvs ih => simp only [StorableDict, ih, List.forall_mem_cons]

theorem excludeNone_cons {v : PyVal} (hv : v ≠ .none) (k : String) (kvs : PyDict) :
    excludeNone ((k, v) :: kvs) = (k, v) :: excludeNone kvs := by
  cases v <;> first | rfl | exact absurd rfl hv

theorem excludeNone_canonDict (kvs : PyDict) : excludeNone (canonDict kvs) = canonDict kvs := by
  induction kvs with
  | nil => rfl
  | cons kv kvs ih =>
    obtain ⟨k, v⟩ := kv
    by_cases hv : v = .none
    · subst hv
      simpa only [canonDict] using ih
    · rw [canonDict_cons hv, excludeNone_cons (PyVal.canon_ne_none hv), ih]

theorem jsonModeDict_eq_map (kvs : PyDict) :
    jsonModeDict kvs = kvs.map fun kv => (kv.1, kv.2.jsonMode) := by
  induction kvs with
  | nil => rfl
  | cons kv kvs ih => rw [jsonModeDict, ih, List.map_cons]

theorem excludeNone_sublist (kvs : PyDict) : (excludeNone kvs).Sublist kvs := by
  induction kvs with
  | nil => exact .slnil
  | cons kv kvs ih =>
    obtain ⟨k, v⟩ := kv
    by_cases hv : v = .none
    · subst hv
      exact ih.cons _
    · rw [excludeNone_cons hv]
      exact ih.cons_cons _

/-- What is dropped before the dump would be dropped after it. -/
theorem canonDict_jsonModeDict_excludeNone (kvs : PyDict) :
    canonDict (jsonModeDict (excludeNone kvs)) = canonDict (jsonModeDict kvs) := by
  induction kvs with
  | nil => rfl
  | cons kv kvs ih =>
    obtain ⟨k, v⟩ := kv
    by_cases hv : v = .none
    · subst hv
      exact ih
    · rw [excludeNone_cons hv, jsonModeDict, jsonModeDict]
      by_cases hj : v.jsonMode = .none
      · rw [hj, canonDict, canonDict, ih]
      · rw [canonDict_cons hj, canonDict_cons hj, ih]

theorem jsonMode_number (q : Rat) :
    (if q.den = 1 then PyVal.int q.num else .float (.finite q)).jsonMode =
      if q.den = 1 then .int q.num else .float (.finite q) := by
  by_cases hq : q.den = 1
  · simp only [if_pos hq, PyVal.jsonMode]
  · simp only [if_neg hq, PyVal.jsonMode]

mutual
/-- What was dumped, stored and read back is dumped as it is. -/
theorem PyVal.jsonMode_canon : ∀ v : PyVal, v.jsonMode.canon.jsonMode = v.jsonMode.canon
  | .none => rfl
  | .bool _ => rfl
  | .int _ => rfl
  | .str _ => rfl
  | .decimal _ => rfl
  | .float .nan => rfl
  | .float (.inf _) => rfl
  | .float (.finite q) => jsonMode_number q
  | .list vs => by
      have h := jsonModeList_canon vs
      simp only [PyVal.jsonMode, PyVal.canon, h]
  | .tuple vs => by
      have h := jsonModeList_canon vs
      simp only [PyVal.jsonMode, PyVal.canon, h]
  | .dict kvs => by
      have h := jsonModeDict_canon kvs
      simp only [PyVal.jsonMode, PyVal.canon, h]

theorem jsonModeList_canon :
    ∀ vs : List PyVal, jsonModeList (canonList (jsonModeList vs)) = canonList (jsonModeList vs)
  | [] => rfl
  | v :: vs => by
      have hv := PyVal.jsonMode_canon v
      have hvs := jsonModeList_canon vs
      simp only [jsonModeList, canonList, hv, hvs]

theorem jsonModeDict_canon :
    ∀ kvs : PyDict, jsonModeDict (canonDict (jsonModeDict kvs)) = canonDict (jsonModeDict kvs)
  | [] => rfl
  | (k, v) :: kvs => by
      have hv := PyVal.jsonMode_canon v
      have hkvs := jsonModeDict_canon kvs
      rw [jsonModeDict]
      by_cases hj : v.jsonMode = .none
      · rw [hj, canonDict, hkvs]
      · rw [canonDict_cons hj, jsonModeDict, hv, hkvs]
end

/-- What `get_job` returns of a map of values of type `Any`. -/
def returnedDict (kvs : PyDict) : PyDict := canonDict (jsonModeDict kvs)

theorem returnedDict_returnedDict (kvs : PyDict) :
    returnedDict (returnedDict kvs) = returnedDict kvs := by
  unfold returnedDict
  rw [jsonModeDict_canon, canonDict_canonDict]

/-- It is dumped as it is. -/
theorem dumped_returnedDict (kvs : PyDict) :
    jsonModeDict (excludeNone (returnedDict kvs)) = returnedDict kvs := by
  unfold returnedDict
  rw [excludeNone_canonDict, jsonModeDict_canon]

theorem keys_canonDict {kvs : PyDict} {kv : String × PyVal} (h : kv ∈ canonDict kvs) :
    ∃ kv' ∈ kvs, kv'.1 = kv.1 := by
  induction kvs with
  | nil => cases h
  | cons kv' kvs ih =>
    obtain ⟨k, v⟩ := kv'
    by_cases hv : v = .none
    · subst hv
      obtain ⟨kv', hmem, hk⟩ := ih (by simpa only [canonDict] using h)
      exact ⟨kv', List.mem_cons_of_mem _ hmem, hk⟩
    · rw [canonDict_cons hv] at h
      obtain rfl | h := List.mem_cons.mp h
      · exact ⟨_, List.mem_cons_self, rfl⟩
      · obtain ⟨kv', hmem, hk⟩ := ih h
        exact ⟨kv', List.mem_cons_of_mem _ hmem, hk⟩

theorem keys_returnedDict {kvs : PyDict} {kv : String × PyVal} (h : kv ∈ returnedDict kvs) :
    ∃ kv' ∈ kvs, kv'.1 = kv.1 := by
  obtain ⟨kv', hmem, hk⟩ := keys_canonDict h
  rw [jsonModeDict_eq_map] at hmem
  obtain ⟨kv₀, hmem₀, rfl⟩ := List.mem_map.mp hmem
  exact ⟨kv₀, hmem₀, hk⟩

/-- Leaving entries out leaves a storable dump storable. -/
theorem StorableDict.excludeNone {kvs : PyDict} (h : StorableDict (jsonModeDict kvs)) :
    StorableDict (jsonModeDict (excludeNone kvs)) := by
  rw [storableDict_iff, jsonModeDict_eq_map] at h ⊢
  exact fun kv hkv => h kv (((excludeNone_sublist kvs).map _).subset hkv)

theorem extras_append (names : List String) (a b : PyDict) :
    extras names (a ++ b) = extras names a ++ extras names b := List.filter_append ..

theorem extras_known {names : List String} {d : PyDict} (h : ∀ kv ∈ d, kv.1 ∈ names) :
    extras names d = [] := by
  refine List.filter_eq_nil_iff.mpr fun kv hkv => ?_
  simpa using h kv hkv

theorem extras_unknown {names : List String} {d : PyDict} (h : ∀ kv ∈ d, kv.1 ∉ names) :
    extras names d = d := by
  refine List.filter_eq_self.mpr fun kv hkv => ?_
  simpa using h kv hkv

/-! ## Thumbnails -/

namespace ThumbnailOutput

def canon (t : ThumbnailOutput) : ThumbnailOutput := { t with extra := returnedDict t.extra }

/-- pydantic keeps under `extra` only what is no field. -/
def Proper (t : ThumbnailOutput) : Prop := ∀ kv ∈ t.extra, kv.1 ∉ fieldNames

/-- The numbers have at most 38 digits and the extra values are storable as they are dumped. -/
structure Storable (t : ThumbnailOutput) : Prop where
  size : (PyVal.int t.size).Storable
  width : (PyVal.int t.width).Storable
  height : (PyVal.int t.height).Storable
  bytes : (PyVal.int t.bytes).Storable
  extra : StorableDict (jsonModeDict t.extra)

theorem view_canon (t : ThumbnailOutput) : t.canon.view = t.fields ++ returnedDict t.extra :=
  congrArg (t.fields ++ ·) (dumped_returnedDict t.extra)

theorem canonDict_dump (t : ThumbnailOutput) : canonDict t.dump = t.canon.view := by
  rw [dump, canonDict_append, view_canon]
  rfl

theorem canonDict_view (t : ThumbnailOutput) : canonDict t.view = t.canon.view := by
  rw [view, canonDict_append, canonDict_jsonModeDict_excludeNone, view_canon]
  rfl

theorem Storable.fields {t : ThumbnailOutput} (h : t.Storable) : ∀ kv ∈ t.fields, kv.2.Storable := by
  intro kv hkv
  simp only [ThumbnailOutput.fields, List.mem_cons, List.not_mem_nil, or_false] at hkv
  rcases hkv with rfl | rfl | rfl | rfl | rfl
  exacts [h.size, PyVal.storable_str _, h.width, h.height, h.bytes]

theorem Storable.dump {t : ThumbnailOutput} (h : t.Storable) : (PyVal.dict t.dump).Storable := by
  rw [PyVal.Storable, storableDict_iff]
  exact List.forall_mem_append.mpr ⟨h.fields, (storableDict_iff _).mp h.extra⟩

theorem Storable.view {t : ThumbnailOutput} (h : t.Storable) : (PyVal.dict t.view).Storable := by
  rw [PyVal.Storable, storableDict_iff]
  exact List.forall_mem_append.mpr ⟨h.fields, (storableDict_iff _).mp h.extra.excludeNone⟩

theorem ofVal?_view_canon {intOfStr : String → Option Int} {t : ThumbnailOutput} (ht : t.Proper) :
    ofVal? intOfStr (.dict t.canon.view) = some t.canon := by
  have hextra : extras fieldNames t.canon.view = t.canon.extra := by
    rw [view_canon, extras_append, extras_known, extras_unknown, List.nil_append]
    · rfl
    · intro kv hkv
      obtain ⟨kv', hmem, hk⟩ := keys_returnedDict hkv
      exact hk ▸ ht kv' hmem
    · intro kv hkv
      simp only [fields, List.mem_cons, List.not_mem_nil, or_false] at hkv
      rcases hkv with rfl | rfl | rfl | rfl | rfl <;> simp [fieldNames]
  unfold ofVal?
  dsimp only
  rw [hextra]
  rfl

end ThumbnailOutput

namespace Outputs

def canon (o : Outputs) : Outputs := o.map fun kv => (kv.1, kv.2.canon)

theorem canon_canon (o : Outputs) : canon (canon o) = canon o := by
  unfold canon
  rw [List.map_map]
  refine List.map_congr_left fun kv _ => ?_
  simp only [Function.comp_apply, ThumbnailOutput.canon, returnedDict_returnedDict]

theorem canonDict_dump (o : Outputs) : canonDict (dump o) = view (canon o) := by
  induction o with
  | nil => rfl
  | cons kv o ih =>
    obtain ⟨k, t⟩ := kv
    have ht := t.canonDict_dump
    rw [dump, canonDict_cons (fun h => by cases h), ih, PyVal.canon, ht]
    rfl

theorem canonDict_view (o : Outputs) : canonDict (view o) = view (canon o) := by
  induction o with
  | nil => rfl
  | cons kv o ih =>
    obtain ⟨k, t⟩ := kv
    have ht := t.canonDict_view
    rw [view, canonDict_cons (fun h => by cases h), ih, PyVal.canon, ht]
    rfl

theorem ofDict?_view {intOfStr : String → Option Int} {o : Outputs}
    (ho : ∀ kv ∈ o, kv.2.Proper) : ofDict? intOfStr (view (canon o)) = some (canon o) := by
  induction o with
  | nil => rfl
  | cons kv o ih =>
    obtain ⟨k, t⟩ := kv
    have ht : ThumbnailOutput.ofVal? intOfStr (.dict t.canon.view) = some t.canon :=
      ThumbnailOutput.ofVal?_view_canon (ho _ List.mem_cons_self)
    have hrest := ih fun kv hkv => ho kv (List.mem_cons_of_mem _ hkv)
    rw [canon, List.map_cons, view, ofDict?, ht]
    rw [canon] at hrest
    rw [hrest]
    rfl

theorem storable {o : Outputs} (h : ∀ kv ∈ o, kv.2.Storable) : (PyVal.dict (dump o)).Storable := by
  rw [PyVal.Storable]
  induction o with
  | nil => trivial
  | cons kv o ih =>
    obtain ⟨k, t⟩ := kv
    rw [dump, StorableDict]
    exact ⟨(h _ List.mem_cons_self).dump, ih fun kv hkv => h kv (List.mem_cons_of_mem _ hkv)⟩

theorem storable_view {o : Outputs} (h : ∀ kv ∈ o, kv.2.Storable) :
    (PyVal.dict (view o)).Storable := by
  rw [PyVal.Storable]
  induction o with
  | nil => trivial
  | cons kv o ih =>
    obtain ⟨k, t⟩ := kv
    rw [view, StorableDict]
    exact ⟨(h _ List.mem_cons_self).view, ih fun kv hkv => h kv (List.mem_cons_of_mem _ hkv)⟩

end Outputs

/-! ## Records -/

theorem canonDict_dumpOpt {α : Type} (name : String) {f : α → PyVal} (hf : ∀ x, f x ≠ .none)
    (o : Option α) : canonDict (dumpOpt name f o) = dumpOpt name (fun x => (f x).canon) o := by
  cases o with
  | none => rfl
  | some x => exact canonDict_cons (hf x) _ _

theorem lookup_dump {α : Type} (name a : String) (f : α → PyVal) (o : Option α) :
    (dumpOpt name f o).lookup a = if a = name then o.map f else none := by
  cases o with
  | none => simp [dumpOpt]
  | some x =>
    rw [dumpOpt, lookup_cons_if]
    simp

namespace JobRecord

/-- The record as `get_job` returns it after `put_job`. -/
def canon (r : JobRecord) : JobRecord :=
  { r with
    outputs := r.outputs.map Outputs.canon
    exif := r.exif.map returnedDict
    extra := returnedDict r.extra }

/-- pydantic keeps under `extra` only what is no field. -/
structure Proper (r : JobRecord) : Prop where
  extra : ∀ kv ∈ r.extra, kv.1 ∉ fieldNames
  outputs : ∀ o, r.outputs = some o → ∀ kv ∈ o, kv.2.Proper

/-- Numbers of at most 38 digits, and `exif` and extra values that are storable as they are dumped. -/
structure Storable (r : JobRecord) : Prop where
  sizeBytes : (PyVal.int r.sizeBytes).Storable
  sourceWidth : ∀ n, r.sourceWidth = some n → (PyVal.int n).Storable
  sourceHeight : ∀ n, r.sourceHeight = some n → (PyVal.int n).Storable
  processingMs : ∀ n, r.processingMs = some n → (PyVal.int n).Storable
  outputs : ∀ o, r.outputs = some o → ∀ kv ∈ o, kv.2.Storable
  exif : ∀ d, r.exif = some d → StorableDict (jsonModeDict d)
  extra : StorableDict (jsonModeDict r.extra)

/-- What is stored of a record and read back is the public view of `canon`. -/
theorem canonDict_toItem (r : JobRecord) : canonDict r.toItem = r.canon.publicView := by
  have hstr : ∀ name (o : Option String),
      canonDict (dumpOpt name .str o) = dumpOpt name .str o := fun name o =>
    canonDict_dumpOpt name (fun _ h => by cases h) o
  have hint : ∀ name (o : Option Int),
      canonDict (dumpOpt name .int o) = dumpOpt name .int o := fun name o =>
    canonDict_dumpOpt name (fun _ h => by cases h) o
  have houtputs : canonDict (dumpOpt "outputs" (fun o => .dict (Outputs.view o)) r.outputs) =
      dumpOpt "outputs" (fun o => .dict (Outputs.view o)) (r.outputs.map Outputs.canon) := by
    rw [canonDict_dumpOpt _ fun _ h => by cases h]
    cases r.outputs with
    | none => rfl
    | some o => simp only [dumpOpt, Option.map_some, PyVal.canon, Outputs.canonDict_view]
  have hexif : canonDict (dumpOpt "exif" (fun d => .dict (jsonModeDict d)) r.exif) =
      dumpOpt "exif" (fun d => .dict (jsonModeDict d)) (r.exif.map returnedDict) := by
    rw [canonDict_dumpOpt _ fun _ h => by cases h]
    cases r.exif with
    | none => rfl
    | some d => simp only [dumpOpt, Option.map_some, PyVal.canon, returnedDict, jsonModeDict_canon]
  have hextra : canonDict (jsonModeDict (excludeNone r.extra)) =
      jsonModeDict (excludeNone (returnedDict r.extra)) := by
    rw [canonDict_jsonModeDict_excludeNone, dumped_returnedDict]
    rfl
  rw [toItem, publicView, modelDump, modelDump]
  simp only [canonDict_append, hstr, hint, houtputs, hexif, hextra, canon]
  rfl

theorem Storable.toItem {r : JobRecord} (h : r.Storable) : StorableDict r.toItem := by
  have hopt : ∀ {α : Type} (name : String) (f : α → PyVal) (o : Option α),
      (∀ x, o = some x → (f x).Storable) → ∀ kv ∈ dumpOpt name f o, kv.2.Storable := by
    intro α name f o ho kv hkv
    cases o with
    | none => cases hkv
    | some x =>
      obtain rfl := List.mem_singleton.mp hkv
      exact ho x rfl
  have hstr : ∀ name (o : Option String), ∀ kv ∈ dumpOpt name .str o, kv.2.Storable :=
    fun name o => hopt name .str o fun _ _ => PyVal.storable_str _
  rw [storableDict_iff]
  simp only [JobRecord.toItem, JobRecord.modelDump, List.forall_mem_append]
  and_intros
  · intro kv hkv
    simp only [List.mem_cons, List.not_mem_nil, or_false] at hkv
    rcases hkv with rfl | rfl | rfl | rfl | rfl | rfl | rfl
    all_goals first | exact PyVal.storable_str _ | exact h.sizeBytes
  · exact hstr _ _
  · exact hstr _ _
  · exact hstr _ _
  · exact hopt _ _ _ fun o ho => Outputs.storable_view (h.outputs o ho)
  · exact hopt _ _ _ h.exif
  · exact hopt _ _ _ h.sourceWidth
  · exact hopt _ _ _ h.sourceHeight
  · exact hstr _ _
  · exact hopt _ _ _ h.processingMs
  · exact hstr _ _
  · exact hstr _ _
  · exact (storableDict_iff _).mp h.extra.excludeNone

theorem Proper.canon {r : JobRecord} (h : r.Proper) : ∀ kv ∈ r.canon.extra, kv.1 ∉ fieldNames := by
  intro kv hkv
  obtain ⟨kv', hmem, hk⟩ := keys_returnedDict hkv
  exact hk ▸ h.extra kv' hmem

/-- A public view without the extra values. -/
def fields (r : JobRecord) : PyDict :=
  [("job_id", .str r.jobId), ("status", .str r.status.value), ("created_at", .str r.createdAt),
    ("filename", .str r.filename), ("size_bytes", .int r.sizeBytes),
    ("content_type", .str r.contentType), ("input_key", .str r.inputKey)] ++
  dumpOpt "updated_at" .str r.updatedAt ++ dumpOpt "started_at" .str r.startedAt ++
  dumpOpt "completed_at" .str r.completedAt ++
  dumpOpt "outputs" (fun o => .dict (Outputs.view o)) r.outputs ++
  dumpOpt "exif" (fun d => .dict (jsonModeDict d)) r.exif ++
  dumpOpt "source_width" .int r.sourceWidth ++ dumpOpt "source_height" .int r.sourceHeight ++
  dumpOpt "source_format" .str r.sourceFormat ++ dumpOpt "processing_ms" .int r.processingMs ++
  dumpOpt "error" .str r.error ++ dumpOpt "trace_id" .str r.traceId

theorem keys_fields (r : JobRecord) : ∀ kv ∈ r.fields, kv.1 ∈ fieldNames := by
  have hopt : ∀ {α : Type} (name : String) (f : α → PyVal) (o : Option α), name ∈ fieldNames →
      ∀ kv ∈ dumpOpt name f o, kv.1 ∈ fieldNames := by
    intro α name f o hname kv hkv
    cases o with
    | none => cases hkv
    | some x =>
      obtain rfl := List.mem_singleton.mp hkv
      exact hname
  simp only [fields, List.forall_mem_append]
  and_intros
  · intro kv hkv
    simp only [List.mem_cons, List.not_mem_nil, or_false] at hkv
    rcases hkv with rfl | rfl | rfl | rfl | rfl | rfl | rfl <;> simp [fieldNames]
  all_goals exact hopt _ _ _ (by simp [fieldNames])

end JobRecord

section Reading

variable {intOfStr : String → Option Int} {d : PyDict} {a : String}

theorem readStr_of {v : String} (h : d.lookup a = some (.str v)) : readStr d a = some v := by
  simp only [readStr, h]

theorem readInt_of {n : Int} (h : d.lookup a = some (.int n)) :
    readInt intOfStr d a = some n := by
  simp only [readInt, h, Option.bind_some, asInt]

theorem readOptStr_of {o : Option String} (h : d.lookup a = o.map .str) :
    readOptStr d a = some o := by
  cases o <;> simp only [readOptStr, h, Option.map_none, Option.map_some]

theorem readOptInt_of {o : Option Int} (h : d.lookup a = o.map .int) :
    readOptInt intOfStr d a = some o := by
  cases o <;> simp only [readOptInt, h, Option.map_none, Option.map_some, asInt]

theorem readOptDict_of {o : Option PyDict} (h : d.lookup a = o.map .dict) :
    readOptDict d a = some o := by
  cases o <;> simp only [readOptDict, h, Option.map_none, Option.map_some]

theorem readOutputs_of {o : Option Outputs}
    (h : d.lookup "outputs" = o.map fun o => .dict (Outputs.view o))
    (ho : ∀ o', o = some o' → Outputs.ofDict? intOfStr (Outputs.view o') = some o') :
    readOutputs intOfStr d = some o := by
  cases o with
  | none => simp only [readOutputs, readOptDict, h, Option.map_none, Option.bind_some]
  | some o =>
    simp only [readOutputs, readOptDict, h, Option.map_some, Option.bind_some, ho o rfl]

end Reading

namespace JobRecord

theorem lookup_outputs (r : JobRecord) :
    r.fields.lookup "outputs" = r.outputs.map fun o => .dict (Outputs.view o) := by
  simp [fields, List.lookup_append, lookup_cons_if, lookup_dump]

theorem lookup_exif (r : JobRecord) :
    r.canon.fields.lookup "exif" = r.canon.exif.map .dict := by
  have hfields : r.canon.fields.lookup "exif" =
      r.canon.exif.map fun d => .dict (jsonModeDict d) := by
    simp [fields, List.lookup_append, lookup_cons_if, lookup_dump]
  rw [hfields, canon, Option.map_map, Option.map_map]
  refine Option.map_congr fun d _ => ?_
  simp only [Function.comp_apply, returnedDict, jsonModeDict_canon]

/-- **A public view validates as the record it shows.** -/
theorem ofDict?_publicView (intOfStr : String → Option Int) {r : JobRecord} (h : r.Proper) :
    ofDict? intOfStr r.canon.publicView = some r.canon := by
  have hview : r.canon.publicView = r.canon.fields ++ r.canon.extra :=
    congrArg (r.canon.fields ++ ·) (dumped_returnedDict r.extra)
  have hlook : ∀ a ∈ fieldNames, ∀ o, r.canon.fields.lookup a = o →
      r.canon.publicView.lookup a = o := by
    rintro a ha _ rfl
    have hextra : r.canon.extra.lookup a = none := by
      refine List.lookup_eq_none_iff.mpr fun kv hkv => ?_
      have hne : a ≠ kv.1 := fun he => h.canon kv hkv (he ▸ ha)
      simpa using hne
    rw [hview, List.lookup_append, hextra, Option.or_none]
  have hrest : extras fieldNames r.canon.publicView = r.canon.extra := by
    rw [hview, extras_append, extras_known r.canon.keys_fields, extras_unknown h.canon,
      List.nil_append]
  have houtputs : ∀ o, r.canon.outputs = some o →
      Outputs.ofDict? intOfStr (Outputs.view o) = some o := by
    intro o ho
    obtain ⟨o', ho', rfl⟩ := Option.map_eq_some_iff.mp ho
    exact Outputs.ofDict?_view (h.outputs o' ho')
  have hexif := r.lookup_exif
  generalize r.canon.publicView = d at hlook hrest
  generalize r.canon = c at hlook hrest houtputs hexif
  have hreq : ∀ a ∈ fieldNames, ∀ v, c.fields.lookup a = some (.str v) → readStr d a = some v :=
    fun a ha v hv => readStr_of (hlook a ha _ hv)
  have h₁ := hreq "job_id" (by decide) c.jobId (by simp [fields])
  have h₂ := hreq "status" (by decide) c.status.value (by simp [fields, lookup_cons_if])
  have h₃ := hreq "created_at" (by decide) c.createdAt (by simp [fields, lookup_cons_if])
  have h₄ := hreq "filename" (by decide) c.filename (by simp [fields, lookup_cons_if])
  have h₅ : readInt intOfStr d "size_bytes" = some c.sizeBytes :=
    readInt_of (hlook "size_bytes" (by decide) _ (by simp [fields, lookup_cons_if]))
  have h₆ := hreq "content_type" (by decide) c.contentType (by simp [fields, lookup_cons_if])
  have h₇ := hreq "input_key" (by decide) c.inputKey (by simp [fields, lookup_cons_if])
  have hstr : ∀ a ∈ fieldNames, ∀ o : Option String, c.fields.lookup a = o.map .str →
      readOptStr d a = some o := fun a ha o ho => readOptStr_of (hlook a ha _ ho)
  have hint : ∀ a ∈ fieldNames, ∀ o : Option Int, c.fields.lookup a = o.map .int →
      readOptInt intOfStr d a = some o := fun a ha o ho => readOptInt_of (hlook a ha _ ho)
  have h₈ := hstr "updated_at" (by decide) c.updatedAt
    (by simp [fields, List.lookup_append, lookup_cons_if, lookup_dump])
  have h₉ := hstr "started_at" (by decide) c.startedAt
    (by simp [fields, List.lookup_append, lookup_cons_if, lookup_dump])
  have h₁₀ := hstr "completed_at" (by decide) c.completedAt
    (by simp [fields, List.lookup_append, lookup_cons_if, lookup_dump])
  have h₁₁ : readOutputs intOfStr d = some c.outputs :=
    readOutputs_of (hlook "outputs" (by decide) _ c.lookup_outputs) houtputs
  have h₁₂ : readOptDict d "exif" = some c.exif :=
    readOptDict_of (hlook "exif" (by decide) _ hexif)
  have h₁₃ := hint "source_width" (by decide) c.sourceWidth
    (by simp [fields, List.lookup_append, lookup_cons_if, lookup_dump])
  have h₁₄ := hint "source_height" (by decide) c.sourceHeight
    (by simp [fields, List.lookup_append, lookup_cons_if, lookup_dump])
  have h₁₅ := hstr "source_format" (by decide) c.sourceFormat
    (by simp [fields, List.lookup_append, lookup_cons_if, lookup_dump])
  have h₁₆ := hint "processing_ms" (by decide) c.processingMs
    (by simp [fields, List.lookup_append, lookup_cons_if, lookup_dump])
  have h₁₇ := hstr "error" (by decide) c.error
    (by simp [fields, List.lookup_append, lookup_cons_if, lookup_dump])
  have h₁₈ := hstr "trace_id" (by decide) c.traceId
    (by simp [fields, List.lookup_append, lookup_cons_if, lookup_dump])
  unfold ofDict?
  rw [h₁, h₂, h₃, h₄, h₅, h₆, h₇, h₈, h₉, h₁₀, h₁₁, h₁₂, h₁₃, h₁₄, h₁₅, h₁₆, h₁₇, h₁₈, hrest]
  simp only [Option.bind_eq_bind, Option.bind_some, JobStatus.ofValue?_value]
  rfl

theorem canon_canon (r : JobRecord) : r.canon.canon = r.canon := by
  have houtputs : (r.outputs.map Outputs.canon).map Outputs.canon = r.outputs.map Outputs.canon := by
    rw [Option.map_map]
    exact Option.map_congr fun o _ => o.canon_canon
  have hexif : (r.exif.map returnedDict).map returnedDict = r.exif.map returnedDict := by
    rw [Option.map_map]
    exact Option.map_congr fun d _ => returnedDict_returnedDict d
  simp only [canon, houtputs, hexif, returnedDict_returnedDict]

end JobRecord

/-! ## `put_job` and `get_job` -/

section RoundTrip

variable {ext : Externals} {perform : Cloud → (q : Request) → Choice → Option (q.Resp × Cloud)}

theorem play_retry {q : Request} {policy : RetryPolicy} {operation : String} {s s' : Cloud}
    {ch : Choice} {v : q.Val} (hpos : policy.attempts ≠ 0)
    (hv : perform s q ch = some (.ok v, s')) :
    Prog.play perform (callWithRetry policy operation noSwallow (ask q)) s [ch] =
      some (.ret (.ok v), s', [⟨q, .ok v⟩]) := by
  obtain ⟨n, hn⟩ := Nat.exists_eq_succ_of_ne_zero hpos
  rw [callWithRetry, hn]
  exact Prog.play_step (h := []) hv rfl

/-- The stored record is read back as the public view of `canon`, and has the key of the job. -/
theorem JobRecord.stored {r : JobRecord} {it : Item}
    (hit : serializeDict (JobTable.recordItem r) = .ok it) :
    fromDynamoDict it = r.canon.publicView ∧ itemKey it = some r.jobId := by
  refine ⟨(fromDynamoDict_serialize _ it hit).trans r.canonDict_toItem, ?_⟩
  have hid : (JobTable.recordItem r).lookup "job_id" = some (.str r.jobId) := rfl
  have hget : Item.get it "job_id" = some (.s r.jobId) := serializeDict_str hit hid
  simp only [itemKey, hget]

theorem JobTable.play_putJob {table : JobTable} {r : JobRecord} {s s' : Cloud} {ch : Choice}
    (hpos : table.policy.attempts ≠ 0)
    (hput : perform s (.putItem (recordItem r)) ch = some (.ok (), s')) :
    Prog.play perform (table.putJob r) s [ch] =
      some (.ret (.ok ()), s', [⟨.putItem (recordItem r), .ok ()⟩]) := play_retry hpos hput

theorem JobTable.play_getJob {intOfStr : String → Option Int} {table : JobTable} {id : String}
    {item : Option Item} {record : Except Exc (Option JobRecord)} {s s' : Cloud} {ch : Choice}
    (hpos : table.policy.attempts ≠ 0) (hget : perform s (.getItem id) ch = some (.ok item, s'))
    (hdecode : decodeItem intOfStr item = record) :
    Prog.play perform (table.getJob intOfStr id) s [ch] =
      some (.ret record, s', [⟨.getItem id, .ok item⟩]) := by
  refine Fallible.play_bind_ret (play_retry hpos hget) ?_
  rw [hdecode]
  cases record <;> rfl

theorem JobTable.play_put_get {table : JobTable} {r : JobRecord} {item : Option Item}
    {record : Option JobRecord} {s s' s'' : Cloud} (hpos : table.policy.attempts ≠ 0)
    (hput : s.perform ext (.putItem (recordItem r)) {} = some (.ok (), s'))
    (hget : s'.perform ext (.getItem r.jobId) {} = some (.ok item, s''))
    (hdecode : decodeItem ext.intOfStr item = .ok record) :
    (do table.putJob r
        table.getJob ext.intOfStr r.jobId : Py (Option JobRecord)).play (Cloud.perform ext) s
        [{}, {}] = some (.ret (.ok record), s'',
          [⟨.getItem r.jobId, .ok item⟩, ⟨.putItem (recordItem r), .ok ()⟩]) := by
  have hrun := Fallible.play_bind (f := fun _ => table.getJob ext.intOfStr r.jobId) _ _
    (play_putJob hpos hput) (play_getJob hpos hget hdecode)
  exact hrun

/-- **What is put is got back**, up to `None`-valued entries and the type of whole numbers, and its
public view is the stored item decoded. -/
theorem put_then_get (ext : Externals) (config : Config) (s : Cloud) {r : JobRecord}
    (hproper : r.Proper) (hstorable : r.Storable) :
    ∃ r' it s' h,
      (do (AwsClients.build config).table.putJob r
          (AwsClients.build config).table.getJob ext.intOfStr r.jobId : Py (Option JobRecord)).play
        (Cloud.perform ext) s [{}, {}] = some (.ret (.ok (some r')), s', h) ∧
      r'.canon = r.canon ∧ s'.table r.jobId = some it ∧ r'.publicView = fromDynamoDict it := by
  obtain ⟨it, hit⟩ : ∃ it, serializeDict (JobTable.recordItem r) = .ok it :=
    (storableDict_serialize_iff _).mp hstorable.toItem
  obtain ⟨hview, hkey⟩ := JobRecord.stored hit
  have hput : s.perform ext (.putItem (JobTable.recordItem r)) {} =
      some (.ok (), s.setItem r.jobId it) := by
    simp only [Cloud.perform, Cloud.serve, hit, hkey]
  have hget : (s.setItem r.jobId it).perform ext (.getItem r.jobId) {} =
      some (.ok (some it), s.setItem r.jobId it) := by
    simp only [Cloud.perform, Cloud.serve, Cloud.setItem_table, if_true]
  have hdecode : JobTable.decodeItem ext.intOfStr (some it) = .ok (some r.canon) := by
    have hval := JobRecord.ofDict?_publicView ext.intOfStr hproper
    rw [← hview] at hval
    cases it with
    | nil => cases hkey
    | cons kv it =>
      simp only [JobTable.decodeItem, JobRecord.fromItem, hval]
      rfl
  have hpos : (AwsClients.build config).table.policy.attempts ≠ 0 := by
    change defaultPolicy.attempts ≠ 0
    decide
  refine ⟨r.canon, it, _, _, JobTable.play_put_get hpos hput hget hdecode, r.canon_canon, ?_,
    hview.symm⟩
  rw [Cloud.setItem_table, if_pos rfl]

open Surroundings in
/-- A record with every kind of value in it. -/
def finished : JobRecord where
  jobId := jobId
  status := .complete
  createdAt := clock
  filename := "dot.gif"
  sizeBytes := dotGif.length
  contentType := "image/gif"
  inputKey := JobService.inputKey jobId ".gif"
  outputs := some [("150", ⟨150, "thumb_150.jpg", 1, 1, 4, [("note", .none), ("ok", .bool true)]⟩)]
  exif := some [("FNumber", .float (.finite (14 / 5))),
    ("Lens", .list [.int 24, .float (.finite 70)]),
    ("Flash", .dict [("mode", .none), ("name", .str "auto")])]
  extra := [("owner", .str "api"), ("ttl", .int 86400)]

theorem finished_proper : finished.Proper := by
  refine ⟨by decide, fun o ho kv hkv => ?_⟩
  cases ho
  obtain rfl := List.mem_singleton.mp hkv
  exact fun kv hkv => by revert kv; decide

open Surroundings in
theorem put_then_get_finished :
    ∃ r' it s' h,
      (do (AwsClients.build config).table.putJob finished
          (AwsClients.build config).table.getJob small.intOfStr jobId : Py (Option JobRecord)).play
        (Cloud.perform small) Cloud.empty [{}, {}] = some (.ret (.ok (some r')), s', h) ∧
      r'.canon = finished.canon ∧ s'.table jobId = some it ∧ r'.publicView = fromDynamoDict it := by
  have hthumb : ∀ kv ∈ finished.outputs.getD [], kv.2.Storable := by
    rintro _ (_ | ⟨_, ⟨⟩⟩)
    constructor <;> simp [PyVal.Storable, StorableDict, PyVal.jsonMode, jsonModeDict]
  have hfocal : inDynamoRange (14 / 5) = true ∧ inDynamoRange 70 = true := by decide +kernel
  have hstorable : finished.Storable := by
    refine ⟨?_, nofun, nofun, nofun, fun o ho => Option.some.inj ho ▸ hthumb, ?_, ?_⟩
    · simp [finished, PyVal.Storable, dotGif, cutGif]
    · simpa [finished, PyVal.Storable, StorableList, StorableDict, PyVal.jsonMode, jsonModeList,
        jsonModeDict] using hfocal
    · simp [finished, PyVal.Storable, StorableDict, PyVal.jsonMode, jsonModeDict]
  exact put_then_get small config Cloud.empty finished_proper hstorable

end RoundTrip

end PixelForge
