import Mathlib.Data.List.Infix
import PixelForge.Shared.Images

/-! # Redaction of log entries (`shared/logging_setup.py`)

`emitted` is the end of the processor chain: `_redaction_processor`, then `_rename_message`.
`erased` is what an observer may depend on: location-like entries gone and the values under
credential-like keys blanked, at every depth.

`lower` is `str.lower`, which rests on the Unicode tables; `text` is `str(key)` of a key of a nested
dict, which need not be a string. `σ` are the scalars other than strings and bytes.
-/
set_option autoImplicit false

namespace PixelForge

inductive LogValue (κ σ : Type)
  | none
  | scalar (x : σ)
  | str (s : String)
  | bytes (data : Bytes)
  | list (vs : List (LogValue κ σ))
  | tuple (vs : List (LogValue κ σ))
  | dict (kvs : List (κ × LogValue κ σ))

/-- An entry on its way through the processors: keyword arguments, so the keys are strings. -/
abbrev EventDict (κ σ : Type) : Type := List (String × LogValue κ σ)

/-! ## Keys -/

def secretKeyMarkers : List String :=
  ["password", "passwd", "secret", "token", "authorization", "access_key", "accesskey",
    "session_token", "credential", "api_key", "apikey", "private_key"]

def gpsKeyMarkers : List String := ["gps", "geolocation", "latitude", "longitude"]

/-- `any(marker in lowered for marker in markers)`. -/
def hasMarker (markers : List String) (lowered : String) : Bool :=
  markers.any fun marker => decide (marker.toList <:+: lowered.toList)

section Redaction

variable {κ σ : Type} (lower : String → String) (text : κ → String)

def isSecretKey (key : String) : Bool := hasMarker secretKeyMarkers (lower key)

def isGpsKey (key : String) : Bool := hasMarker gpsKeyMarkers (lower key)

def redactExif (exif : PyDict) : PyDict := exif.filter fun kv => !isGpsKey lower kv.1

/-! ## The processors -/

def redacted : LogValue κ σ := .str "[redacted]"

/-- `value[:512] + "…[truncated]"` for a value of more than 512 characters. -/
def truncateText (s : String) : String :=
  if s.toList.length > 512 then String.ofList (s.toList.take 512) ++ "…[truncated]" else s

mutual
def scrubValue (depth : Nat) (value : LogValue κ σ) : LogValue κ σ :=
  if depth > 4 then .str "[truncated]"
  else
    match value with
    | .dict kvs => .dict (scrubDict (depth + 1) kvs)
    | .list vs => .list (scrubList (depth + 1) 32 vs)
    | .tuple vs => .list (scrubList (depth + 1) 32 vs)
    | .bytes data => .str s!"[{data.length} bytes]"
    | .str s => .str (truncateText s)
    | .scalar x => .scalar x
    | .none => .none

/-- `[_scrub_value(item, depth) for item in value[:left]]`. -/
def scrubList (depth left : Nat) : List (LogValue κ σ) → List (LogValue κ σ)
  | [] => []
  | v :: vs =>
    match left with
    | 0 => []
    | left + 1 => scrubValue depth v :: scrubList depth left vs

/-- The dict comprehension: location-like keys are skipped, credential-like ones redacted. -/
def scrubDict (depth : Nat) : List (κ × LogValue κ σ) → List (κ × LogValue κ σ)
  | [] => []
  | (key, val) :: kvs =>
    if isGpsKey lower (text key) then scrubDict depth kvs
    else
      (key, if isSecretKey lower (text key) then redacted else scrubValue depth val) ::
        scrubDict depth kvs
end

/-- One turn of the loop of `_redaction_processor`: what is left of an entry. -/
def redactEntry : String × LogValue κ σ → Option (String × LogValue κ σ)
  | (key, value) =>
    if isGpsKey lower key ∧ key ≠ "event" then none
    else if isSecretKey lower key then some (key, redacted)
    else some (key, scrubValue lower text 0 value)

def redactionProcessor (d : EventDict κ σ) : EventDict κ σ := d.filterMap (redactEntry lower text)

def renameMessage (d : EventDict κ σ) : EventDict κ σ :=
  match d.lookup "event" with
  | none => d
  | some .none => d
  | some event => setKey d "message" event

def emitted (d : EventDict κ σ) : EventDict κ σ := renameMessage (redactionProcessor lower text d)

/-! ## What an observer may depend on -/

mutual
/-- A value with its location-like entries removed and the values under credential-like keys
blanked, at every depth. -/
def erased : LogValue κ σ → LogValue κ σ
  | .dict kvs => .dict (erasedDict kvs)
  | .list vs => .list (erasedList vs)
  | .tuple vs => .tuple (erasedList vs)
  | .bytes data => .bytes data
  | .str s => .str s
  | .scalar x => .scalar x
  | .none => .none

def erasedList : List (LogValue κ σ) → List (LogValue κ σ)
  | [] => []
  | v :: vs => erased v :: erasedList vs

def erasedDict : List (κ × LogValue κ σ) → List (κ × LogValue κ σ)
  | [] => []
  | (key, val) :: kvs =>
    if isGpsKey lower (text key) then erasedDict kvs
    else (key, if isSecretKey lower (text key) then .none else erased val) :: erasedDict kvs
end

def erasedEntry : String × LogValue κ σ → Option (String × LogValue κ σ)
  | (key, value) =>
    if isGpsKey lower key then none
    else if isSecretKey lower key then some (key, .none)
    else some (key, erased lower text value)

def erasedEvent (d : EventDict κ σ) : EventDict κ σ := d.filterMap (erasedEntry lower text)

variable {lower text}

mutual
theorem scrubValue_erased :
    ∀ (depth : Nat) (v : LogValue κ σ),
      scrubValue lower text depth (erased lower text v) = scrubValue lower text depth v
  | depth, .dict kvs => by
      have h := scrubDict_erased (depth + 1) kvs
      simp only [erased, scrubValue, h]
  | depth, .list vs => by
      have h := scrubList_erased (depth + 1) 32 vs
      simp only [erased, scrubValue, h]
  | depth, .tuple vs => by
      have h := scrubList_erased (depth + 1) 32 vs
      simp only [erased, scrubValue, h]
  | depth, .bytes data => by simp only [erased]
  | depth, .str s => by simp only [erased]
  | depth, .scalar x => by simp only [erased]
  | depth, .none => by simp only [erased]

theorem scrubList_erased :
    ∀ (depth left : Nat) (vs : List (LogValue κ σ)),
      scrubList lower text depth left (erasedList lower text vs) =
        scrubList lower text depth left vs
  | depth, left, [] => by simp only [erasedList]
  | depth, 0, v :: vs => by simp only [erasedList, scrubList]
  | depth, left + 1, v :: vs => by
      have hv := scrubValue_erased depth v
      have hvs := scrubList_erased depth left vs
      simp only [erasedList, scrubList, hv, hvs]

theorem scrubDict_erased :
    ∀ (depth : Nat) (kvs : List (κ × LogValue κ σ)),
      scrubDict lower text depth (erasedDict lower text kvs) = scrubDict lower text depth kvs
  | depth, [] => by simp only [erasedDict]
  | depth, (key, val) :: kvs => by
      have hval := scrubValue_erased depth val
      have hkvs := scrubDict_erased depth kvs
      by_cases hg : isGpsKey lower (text key) = true
      · simp only [erasedDict, scrubDict, hg, if_true, hkvs]
      · by_cases hs : isSecretKey lower (text key) = true
        · simp only [erasedDict, scrubDict, hg, hs, if_true, if_false, hkvs, Bool.false_eq_true]
        · simp only [erasedDict, scrubDict, hg, hs, if_false, hkvs, hval, Bool.false_eq_true]
end

theorem redactEntry_erased (hevent : isGpsKey lower "event" = false) (kv : String × LogValue κ σ) :
    (erasedEntry lower text kv).bind (redactEntry lower text) = redactEntry lower text kv := by
  obtain ⟨key, value⟩ := kv
  by_cases hg : isGpsKey lower key = true
  · have hne : key ≠ "event" := by
      rintro rfl
      simp [hg] at hevent
    simp [erasedEntry, redactEntry, hg, hne]
  · by_cases hs : isSecretKey lower key = true
    · simp [erasedEntry, redactEntry, hg, hs]
    · simp [erasedEntry, redactEntry, hg, hs, scrubValue_erased]

theorem redactionProcessor_erased (hevent : isGpsKey lower "event" = false) (d : EventDict κ σ) :
    redactionProcessor lower text (erasedEvent lower text d) = redactionProcessor lower text d := by
  unfold redactionProcessor erasedEvent
  rw [List.filterMap_filterMap]
  exact List.filterMap_congr fun kv _ => redactEntry_erased hevent kv

/-- The items of a list that is scrubbed: its first `left` ones. -/
theorem getElem?_scrubList (depth : Nat) :
    ∀ (left : Nat) (vs : List (LogValue κ σ)) (i : Nat),
      (scrubList lower text depth left vs)[i]? =
        if i < left then (vs[i]?).map (scrubValue lower text depth) else none
  | left, [], i => by simp [scrubList]
  | 0, v :: vs, i => by simp [scrubList]
  | left + 1, v :: vs, 0 => by simp [scrubList]
  | left + 1, v :: vs, i + 1 => by
      have ih := getElem?_scrubList depth left vs i
      simp only [scrubList, List.getElem?_cons_succ, ih, Nat.add_lt_add_iff_right]

theorem length_scrubList (depth : Nat) :
    ∀ (left : Nat) (vs : List (LogValue κ σ)),
      (scrubList lower text depth left vs).length = min left vs.length
  | left, [] => by simp [scrubList]
  | 0, v :: vs => by simp [scrubList]
  | left + 1, v :: vs => by
      have ih := length_scrubList depth left vs
      simp only [scrubList, List.length_cons, ih]
      omega

theorem lookup_scrubDict [DecidableEq κ] (depth : Nat) (k : κ) (kvs : List (κ × LogValue κ σ)) :
    (scrubDict lower text depth kvs).lookup k =
      if isGpsKey lower (text k) then none
      else (kvs.lookup k).map fun v =>
        if isSecretKey lower (text k) then redacted else scrubValue lower text depth v := by
  induction kvs with
  | nil => simp [scrubDict]
  | cons kv kvs ih =>
    obtain ⟨key, val⟩ := kv
    by_cases hk : k = key
    · subst hk
      by_cases hg : isGpsKey lower (text k) = true
      · simp [scrubDict, hg, ih]
      · simp [scrubDict, hg]
    · have hb : (k == key) = false := by simpa using hk
      by_cases hg : isGpsKey lower (text key) = true
      · simp only [scrubDict, hg, if_true, ih, List.lookup_cons, hb]
      · simp only [scrubDict, hg, if_false, List.lookup_cons, hb, ih, Bool.false_eq_true]

theorem lookup_redactionProcessor (k : String) (d : EventDict κ σ) :
    (redactionProcessor lower text d).lookup k =
      if isGpsKey lower k ∧ k ≠ "event" then none
      else (d.lookup k).map fun v =>
        if isSecretKey lower k then redacted else scrubValue lower text 0 v := by
  unfold redactionProcessor
  induction d with
  | nil => simp
  | cons kv d ih =>
    obtain ⟨key, value⟩ := kv
    by_cases hk : k = key
    · subst hk
      by_cases hg : isGpsKey lower k = true ∧ k ≠ "event"
      · simp only [List.filterMap_cons, redactEntry, if_pos hg, ih]
      · by_cases hs : isSecretKey lower k = true
        · simp [redactEntry, if_neg hg, hs]
        · simp [redactEntry, if_neg hg, hs]
    · have hb : (k == key) = false := by simpa using hk
      by_cases hg : isGpsKey lower key = true ∧ key ≠ "event"
      · simp only [List.filterMap_cons, redactEntry, if_pos hg, ih, List.lookup_cons, hb]
      · by_cases hs : isSecretKey lower key = true
        · simp only [List.filterMap_cons, redactEntry, if_neg hg, hs, if_true, List.lookup_cons, hb, ih]
        · simp only [List.filterMap_cons, redactEntry, if_neg hg, hs, if_false, List.lookup_cons, hb,
            ih, Bool.false_eq_true]

end Redaction

/-! ## Python's equality -/

section Equality

variable {κ σ : Type} [DecidableEq κ] {agree : σ → σ → Prop}

/-- Python's `==`: dicts have the same keys with equal values, in whatever order. `agree` is `==` on
the scalars (where `1 == True`). -/
inductive LogValue.Same (agree : σ → σ → Prop) : LogValue κ σ → LogValue κ σ → Prop
  | none : Same agree .none .none
  | scalar {x y : σ} (h : agree x y) : Same agree (.scalar x) (.scalar y)
  | str (s : String) : Same agree (.str s) (.str s)
  | bytes (data : Bytes) : Same agree (.bytes data) (.bytes data)
  | list {vs ws : List (LogValue κ σ)} (hlen : vs.length = ws.length)
      (h : ∀ (i : Nat) v w, vs[i]? = some v → ws[i]? = some w → Same agree v w) :
      Same agree (.list vs) (.list ws)
  | tuple {vs ws : List (LogValue κ σ)} (hlen : vs.length = ws.length)
      (h : ∀ (i : Nat) v w, vs[i]? = some v → ws[i]? = some w → Same agree v w) :
      Same agree (.tuple vs) (.tuple ws)
  | dict {kvs kws : List (κ × LogValue κ σ)}
      (hkeys : ∀ k, (kvs.lookup k).isSome = (kws.lookup k).isSome)
      (h : ∀ k v w, kvs.lookup k = some v → kws.lookup k = some w → Same agree v w) :
      Same agree (.dict kvs) (.dict kws)

/-- The same for whole entries. -/
structure SameEvent (agree : σ → σ → Prop) (d e : EventDict κ σ) : Prop where
  keys : ∀ k, (d.lookup k).isSome = (e.lookup k).isSome
  values : ∀ k v w, d.lookup k = some v → e.lookup k = some w → LogValue.Same agree v w

variable {lower : String → String} {text : κ → String}

theorem same_scrubList {depth left : Nat} {vs ws : List (LogValue κ σ)}
    (hlen : vs.length = ws.length)
    (h : ∀ (i : Nat) v w, vs[i]? = some v → ws[i]? = some w →
      LogValue.Same agree (scrubValue lower text depth v) (scrubValue lower text depth w)) :
    LogValue.Same agree (.list (scrubList lower text depth left vs))
      (.list (scrubList lower text depth left ws)) := by
  refine .list ?_ fun i v w hv hw => ?_
  · rw [length_scrubList, length_scrubList, hlen]
  · rw [getElem?_scrubList] at hv hw
    split at hv
    · rename_i hi
      rw [if_pos hi] at hw
      obtain ⟨v', hv', rfl⟩ := Option.map_eq_some_iff.mp hv
      obtain ⟨w', hw', rfl⟩ := Option.map_eq_some_iff.mp hw
      exact h i v' w' hv' hw'
    · cases hv

/-- Equal values are scrubbed to equal values, at any depth. -/
theorem LogValue.Same.scrub {v w : LogValue κ σ} (h : Same agree v w) (depth : Nat) :
    Same agree (scrubValue lower text depth v) (scrubValue lower text depth w) := by
  induction h generalizing depth with
  | none =>
    unfold scrubValue
    split
    · exact .str _
    · exact .none
  | scalar h =>
    unfold scrubValue
    split
    · exact .str _
    · exact .scalar h
  | str s =>
    unfold scrubValue
    split
    · exact .str _
    · exact .str _
  | bytes data =>
    unfold scrubValue
    split
    · exact .str _
    · exact .str _
  | list hlen h ih =>
    unfold scrubValue
    split
    · exact .str _
    · exact same_scrubList hlen fun i v w hv hw => ih i v w hv hw (depth + 1)
  | tuple hlen h ih =>
    unfold scrubValue
    split
    · exact .str _
    · exact same_scrubList hlen fun i v w hv hw => ih i v w hv hw (depth + 1)
  | dict hkeys h ih =>
    unfold scrubValue
    split
    · exact .str _
    · refine .dict (fun k => ?_) fun k v w hv hw => ?_
      · rw [lookup_scrubDict, lookup_scrubDict]
        split
        · rfl
        · rw [Option.isSome_map, Option.isSome_map, hkeys]
      · rw [lookup_scrubDict] at hv hw
        split at hv
        · cases hv
        · rename_i hg
          rw [if_neg hg] at hw
          obtain ⟨v', hv', rfl⟩ := Option.map_eq_some_iff.mp hv
          obtain ⟨w', hw', rfl⟩ := Option.map_eq_some_iff.mp hw
          split
          · exact .str _
          · exact ih k v' w' hv' hw' (depth + 1)

theorem SameEvent.redact {d e : EventDict κ σ} (h : SameEvent agree d e) :
    SameEvent agree (redactionProcessor lower text d) (redactionProcessor lower text e) where
  keys k := by
    rw [lookup_redactionProcessor, lookup_redactionProcessor]
    split
    · rfl
    · rw [Option.isSome_map, Option.isSome_map, h.keys]
  values k v w hv hw := by
    rw [lookup_redactionProcessor] at hv hw
    split at hv
    · cases hv
    · rename_i hg
      rw [if_neg hg] at hw
      obtain ⟨v', hv', rfl⟩ := Option.map_eq_some_iff.mp hv
      obtain ⟨w', hw', rfl⟩ := Option.map_eq_some_iff.mp hw
      split
      · exact .str _
      · exact (h.values k v' w' hv' hw').scrub 0

theorem SameEvent.rename {d e : EventDict κ σ} (h : SameEvent agree d e) :
    SameEvent agree (renameMessage d) (renameMessage e) := by
  have hset : ∀ {v w : LogValue κ σ}, LogValue.Same agree v w →
      SameEvent agree (setKey d "message" v) (setKey e "message" w) := by
    intro v w hvw
    refine ⟨fun k => ?_, fun k v' w' hv hw => ?_⟩
    · rw [lookup_setKey, lookup_setKey]
      split
      · rfl
      · exact h.keys k
    · rw [lookup_setKey] at hv hw
      split at hv
      · rename_i hk
        rw [if_pos hk] at hw
        cases hv
        cases hw
        exact hvw
      · rename_i hk
        rw [if_neg hk] at hw
        exact h.values k v' w' hv hw
  have hkeys := h.keys "event"
  have hvalues := h.values "event"
  unfold renameMessage
  cases hd : d.lookup "event" with
  | none =>
    rw [hd] at hkeys
    have he : e.lookup "event" = none := by simpa using hkeys.symm
    rw [he]
    exact h
  | some v =>
    rw [hd] at hkeys
    obtain ⟨w, hw⟩ := Option.isSome_iff_exists.mp hkeys.symm
    have hvw := hvalues v w hd hw
    have hmessage := hset hvw
    rw [hw]
    cases hvw with
    | none => exact h
    | _ => exact hmessage

/-- **Redaction is noninterfering**: entries that agree once their location-like keys are removed
and the values under their credential-like keys are blanked, at every depth, are emitted alike, be
it as lists of entries or as Python compares dicts. -/
theorem emitted_noninterference (lower : String → String) (text : κ → String)
    (agree : σ → σ → Prop) (hevent : lower "event" = "event") (d e : EventDict κ σ) :
    (erasedEvent lower text d = erasedEvent lower text e →
      emitted lower text d = emitted lower text e) ∧
    (SameEvent agree (erasedEvent lower text d) (erasedEvent lower text e) →
      SameEvent agree (emitted lower text d) (emitted lower text e)) := by
  have hkept : isGpsKey lower "event" = false := by
    rw [isGpsKey, hevent]
    decide
  have herased : ∀ d : EventDict κ σ, redactionProcessor lower text (erasedEvent lower text d) =
      redactionProcessor lower text d := redactionProcessor_erased hkept
  have hd := herased d
  have he := herased e
  constructor
  · intro h
    rw [emitted, emitted, ← hd, ← he, h]
  · intro h
    rw [emitted, emitted, ← hd, ← he]
    exact h.redact.rename

theorem emitted_noninterference_nested :
    emitted String.toLower id
        [("event", .str "done"),
          ("exif", .tuple [.dict [("gps", .scalar (1 : Int)), ("token", .scalar 2)]])] =
      emitted String.toLower id
        [("event", .str "done"),
          ("exif", .tuple [.dict [("token", .scalar 4), ("gps", .scalar 3)]])] := by
  have hgps : isGpsKey String.toLower "gps" = true := by decide +kernel
  have htoken : isGpsKey String.toLower "token" = false := by decide +kernel
  have hsecret : isSecretKey String.toLower "token" = true := by decide +kernel
  refine (emitted_noninterference String.toLower id Eq (by decide +kernel) _ _).1 ?_
  simp only [erasedEvent, List.filterMap_cons, erasedEntry, erased, erasedList, erasedDict, id,
    hgps, htoken, hsecret, if_true, if_false, Bool.false_eq_true]

end Equality

end PixelForge
