import PixelForge.Shared.LoggingSetup

/-! # Scrubbed values are bounded and stable (`shared/logging_setup.py`)

`Scrubbed` lists what may be left of a logged value: no constructor admits bytes or a tuple, and
each container takes one of the levels that are left.
-/
set_option autoImplicit false

namespace PixelForge

section Scrubbing

variable {κ σ : Type} (lower : String → String) (text : κ → String)

/-- The suffix of a truncated string. -/
def truncationMarker : String := "…[truncated]"

/-- `sys.maxsize`: no `bytes` object is longer. -/
def maxsize : Nat := 2 ^ 63 - 1

/-- A value Python can hold: every `bytes` in it has a length that `len` can return. -/
inductive LogValue.Held : LogValue κ σ → Prop
  | none : Held .none
  | scalar (x : σ) : Held (.scalar x)
  | str (s : String) : Held (.str s)
  | bytes {data : Bytes} (h : data.length ≤ maxsize) : Held (.bytes data)
  | list {vs : List (LogValue κ σ)} (h : ∀ v ∈ vs, Held v) : Held (.list vs)
  | tuple {vs : List (LogValue κ σ)} (h : ∀ v ∈ vs, Held v) : Held (.tuple vs)
  | dict {kvs : List (κ × LogValue κ σ)} (h : ∀ kv ∈ kvs, Held kv.2) : Held (.dict kvs)

/-- Nothing oversized, secret or location-like, and at most `left` containers nested. -/
inductive LogValue.Scrubbed : Nat → LogValue κ σ → Prop
  | none {left : Nat} : Scrubbed left .none
  | scalar {left : Nat} (x : σ) : Scrubbed left (.scalar x)
  | str {left : Nat} {s : String} (h : s.toList.length ≤ 512 + truncationMarker.toList.length) :
      Scrubbed left (.str s)
  | list {left : Nat} {vs : List (LogValue κ σ)} (hlen : vs.length ≤ 32)
      (h : ∀ v ∈ vs, Scrubbed left v) : Scrubbed (left + 1) (.list vs)
  | dict {left : Nat} {kvs : List (κ × LogValue κ σ)}
      (hgps : ∀ kv ∈ kvs, isGpsKey lower (text kv.1) = false)
      (hsecret : ∀ kv ∈ kvs, isSecretKey lower (text kv.1) = true → kv.2 = redacted)
      (h : ∀ kv ∈ kvs, Scrubbed left kv.2) : Scrubbed (left + 1) (.dict kvs)

variable {lower text}

/-! ## Strings -/

theorem length_truncateText (s : String) :
    (truncateText s).toList.length ≤ 512 + truncationMarker.toList.length := by
  unfold truncateText
  split
  · simp [truncationMarker]
  · omega

/-- Truncation makes a string longer than the limit again, but cuts it at the same place. -/
theorem truncateText_truncateText (s : String) :
    truncateText (truncateText s) = truncateText s := by
  by_cases h : s.toList.length > 512
  · have hcut : truncateText s = String.ofList (s.toList.take 512) ++ truncationMarker := by
      rw [truncateText, if_pos h, truncationMarker]
    have htake : (s.toList.take 512).length = 512 := by
      rw [List.length_take]
      omega
    have hlong : (truncateText s).toList.length > 512 := by
      rw [hcut, String.toList_append, String.toList_ofList, List.length_append, htake]
      decide
    have hsame : (truncateText s).toList.take 512 = s.toList.take 512 := by
      rw [hcut, String.toList_append, String.toList_ofList, List.take_append_of_le_length htake.ge,
        List.take_take, Nat.min_self]
    rw [truncateText, if_pos hlong, hsame, ← truncationMarker, ← hcut]
  · have hkept : truncateText s = s := by rw [truncateText, if_neg h]
    rw [hkept, hkept]

theorem truncateText_of_short {s : String} (h : s.toList.length ≤ 512) : truncateText s = s := by
  rw [truncateText, if_neg (by omega)]

/-- The summary of a `bytes` is short: its length has at most 19 digits. -/
theorem length_bytesSummary {n : Nat} (h : n ≤ maxsize) :
    (s!"[{n} bytes]").toList.length ≤ 512 := by
  have hdigits : n.repr.length ≤ 19 := by
    rw [Nat.length_repr_le_iff (by omega)]
    exact lt_of_le_of_lt h (by decide)
  simp only [toString, String.toList_append, List.length_append, String.length_toList]
  have hopen : "[".length = 1 := by decide
  have hclose : " bytes]".length = 7 := by decide
  omega

/-! ## One level -/

theorem scrubValue_deep {depth : Nat} (h : 4 < depth) (v : LogValue κ σ) :
    scrubValue lower text depth v = .str "[truncated]" := by
  unfold scrubValue
  rw [if_pos h]

theorem scrubValue_list {depth : Nat} (h : depth ≤ 4) (vs : List (LogValue κ σ)) :
    scrubValue lower text depth (.list vs) = .list (scrubList lower text (depth + 1) 32 vs) := by
  rw [scrubValue, if_neg (by omega)]

theorem scrubValue_tuple {depth : Nat} (h : depth ≤ 4) (vs : List (LogValue κ σ)) :
    scrubValue lower text depth (.tuple vs) = .list (scrubList lower text (depth + 1) 32 vs) := by
  rw [scrubValue, if_neg (by omega)]

theorem scrubValue_dict {depth : Nat} (h : depth ≤ 4) (kvs : List (κ × LogValue κ σ)) :
    scrubValue lower text depth (.dict kvs) = .dict (scrubDict lower text (depth + 1) kvs) := by
  rw [scrubValue, if_neg (by omega)]

theorem scrubValue_str {depth : Nat} (h : depth ≤ 4) (s : String) :
    (scrubValue lower text depth (.str s) : LogValue κ σ) = .str (truncateText s) := by
  rw [scrubValue, if_neg (by omega)]

theorem scrubValue_bytes {depth : Nat} (h : depth ≤ 4) (data : Bytes) :
    (scrubValue lower text depth (.bytes data) : LogValue κ σ) =
      .str s!"[{data.length} bytes]" := by
  rw [scrubValue, if_neg (by omega)]

theorem scrubValue_scalar {depth : Nat} (h : depth ≤ 4) (x : σ) :
    (scrubValue lower text depth (.scalar x) : LogValue κ σ) = .scalar x := by
  rw [scrubValue, if_neg (by omega)]

theorem scrubValue_none {depth : Nat} (h : depth ≤ 4) :
    (scrubValue lower text depth .none : LogValue κ σ) = .none := by
  rw [scrubValue, if_neg (by omega)]

theorem mem_scrubList {depth left : Nat} {vs : List (LogValue κ σ)} {w : LogValue κ σ}
    (h : w ∈ scrubList lower text depth left vs) :
    ∃ v ∈ vs, w = scrubValue lower text depth v := by
  induction vs generalizing left with
  | nil => simp [scrubList] at h
  | cons v vs ih =>
    cases left with
    | zero => simp [scrubList] at h
    | succ left =>
      rw [scrubList, List.mem_cons] at h
      rcases h with rfl | h
      · exact ⟨v, List.mem_cons_self, rfl⟩
      · obtain ⟨v', hv', hw⟩ := ih h
        exact ⟨v', List.mem_cons_of_mem v hv', hw⟩

/-- An entry that the comprehension keeps: its key was there and is not location-like. -/
theorem mem_scrubDict {depth : Nat} {kvs : List (κ × LogValue κ σ)} {kw : κ × LogValue κ σ}
    (h : kw ∈ scrubDict lower text depth kvs) :
    isGpsKey lower (text kw.1) = false ∧
      ∃ kv ∈ kvs, kw.2 =
        if isSecretKey lower (text kw.1) then redacted else scrubValue lower text depth kv.2 := by
  induction kvs with
  | nil => simp [scrubDict] at h
  | cons kv kvs ih =>
    have htail : kw ∈ scrubDict lower text depth kvs →
        isGpsKey lower (text kw.1) = false ∧ ∃ kv' ∈ kv :: kvs, kw.2 =
          if isSecretKey lower (text kw.1) then redacted else
            scrubValue lower text depth kv'.2 := by
      intro h
      obtain ⟨hg, kv', hkv', hw⟩ := ih h
      exact ⟨hg, kv', List.mem_cons_of_mem kv hkv', hw⟩
    by_cases hg : isGpsKey lower (text kv.1) = true
    · rw [scrubDict, if_pos hg] at h
      exact htail h
    · rw [scrubDict, if_neg hg, List.mem_cons] at h
      rcases h with rfl | h
      · exact ⟨by simpa using hg, kv, List.mem_cons_self, rfl⟩
      · exact htail h

theorem scrubList_scrubList {depth : Nat} {vs : List (LogValue κ σ)}
    (h : ∀ v ∈ vs, scrubValue lower text depth (scrubValue lower text depth v) =
      scrubValue lower text depth v) (left : Nat) :
    scrubList lower text depth left (scrubList lower text depth left vs) =
      scrubList lower text depth left vs := by
  induction vs generalizing left with
  | nil => simp [scrubList]
  | cons v vs ih =>
    cases left with
    | zero => simp [scrubList]
    | succ left =>
      have hv := h v List.mem_cons_self
      have hvs := ih (fun v' hv' => h v' (List.mem_cons_of_mem v hv')) left
      simp only [scrubList, hv, hvs]

theorem scrubDict_scrubDict {depth : Nat} {kvs : List (κ × LogValue κ σ)}
    (h : ∀ kv ∈ kvs, scrubValue lower text depth (scrubValue lower text depth kv.2) =
      scrubValue lower text depth kv.2) :
    scrubDict lower text depth (scrubDict lower text depth kvs) =
      scrubDict lower text depth kvs := by
  induction kvs with
  | nil => simp [scrubDict]
  | cons kv kvs ih =>
    have hkv := h kv List.mem_cons_self
    have hkvs := ih fun kv' hkv' => h kv' (List.mem_cons_of_mem kv hkv')
    by_cases hg : isGpsKey lower (text kv.1) = true
    · simp only [scrubDict, hg, if_true, hkvs]
    · by_cases hs : isSecretKey lower (text kv.1) = true
      · simp only [scrubDict, hg, hs, if_true, if_false, hkvs, Bool.false_eq_true]
      · simp only [scrubDict, hg, hs, if_false, hkvs, hkv, Bool.false_eq_true]

/-! ## All levels -/

/-- Induction on the value; the levels that are left shrink as `depth` grows. -/
theorem scrubbed_scrubValue {v : LogValue κ σ} (hv : v.Held) {depth left : Nat}
    (hlevels : depth + left = 5) :
    LogValue.Scrubbed lower text left (scrubValue lower text depth v) := by
  induction hv generalizing depth left with
  | none =>
    unfold scrubValue
    split
    · exact .str (by decide)
    · exact .none
  | scalar x =>
    unfold scrubValue
    split
    · exact .str (by decide)
    · exact .scalar x
  | str s =>
    unfold scrubValue
    split
    · exact .str (by decide)
    · exact .str (length_truncateText s)
  | bytes h =>
    unfold scrubValue
    split
    · exact .str (by decide)
    · exact .str (Nat.le_add_right_of_le (length_bytesSummary h))
  | list _ ih =>
    cases left with
    | zero =>
      rw [scrubValue_deep (by omega)]
      exact .str (by decide)
    | succ left =>
      rw [scrubValue_list (by omega)]
      refine .list (by simp [length_scrubList]) fun w hw => ?_
      obtain ⟨v, hv, rfl⟩ := mem_scrubList hw
      exact ih v hv (by omega)
  | tuple _ ih =>
    cases left with
    | zero =>
      rw [scrubValue_deep (by omega)]
      exact .str (by decide)
    | succ left =>
      rw [scrubValue_tuple (by omega)]
      refine .list (by simp [length_scrubList]) fun w hw => ?_
      obtain ⟨v, hv, rfl⟩ := mem_scrubList hw
      exact ih v hv (by omega)
  | dict _ ih =>
    cases left with
    | zero =>
      rw [scrubValue_deep (by omega)]
      exact .str (by decide)
    | succ left =>
      rw [scrubValue_dict (by omega)]
      refine .dict (fun kw hkw => (mem_scrubDict hkw).1) (fun kw hkw hs => ?_) fun kw hkw => ?_
      · obtain ⟨_, kv, _, hval⟩ := mem_scrubDict hkw
        rw [hval, if_pos hs]
      · obtain ⟨_, kv, hkv, hval⟩ := mem_scrubDict hkw
        rw [hval]
        split
        · exact .str (by decide)
        · exact ih kv hkv (by omega)

/-- Every part of a scrubbed value is left alone: what is cut off stays cut off at that depth. -/
theorem scrubValue_scrubValue {v : LogValue κ σ} (hv : v.Held) (depth : Nat) :
    scrubValue lower text depth (scrubValue lower text depth v) = scrubValue lower text depth v := by
  induction hv generalizing depth with
  | none =>
    rcases Nat.lt_or_ge 4 depth with hd | hd
    · rw [scrubValue_deep hd, scrubValue_deep hd]
    · rw [scrubValue_none hd, scrubValue_none hd]
  | scalar x =>
    rcases Nat.lt_or_ge 4 depth with hd | hd
    · rw [scrubValue_deep hd, scrubValue_deep hd]
    · rw [scrubValue_scalar hd, scrubValue_scalar hd]
  | str s =>
    rcases Nat.lt_or_ge 4 depth with hd | hd
    · rw [scrubValue_deep hd, scrubValue_deep hd]
    · rw [scrubValue_str hd, scrubValue_str hd, truncateText_truncateText]
  | bytes h =>
    rcases Nat.lt_or_ge 4 depth with hd | hd
    · rw [scrubValue_deep hd, scrubValue_deep hd]
    · rw [scrubValue_bytes hd, scrubValue_str hd, truncateText_of_short (length_bytesSummary h)]
  | list _ ih =>
    rcases Nat.lt_or_ge 4 depth with hd | hd
    · rw [scrubValue_deep hd, scrubValue_deep hd]
    · rw [scrubValue_list hd, scrubValue_list hd,
        scrubList_scrubList fun v hv => ih v hv (depth + 1)]
  | tuple _ ih =>
    rcases Nat.lt_or_ge 4 depth with hd | hd
    · rw [scrubValue_deep hd, scrubValue_deep hd]
    · rw [scrubValue_tuple hd, scrubValue_list hd,
        scrubList_scrubList fun v hv => ih v hv (depth + 1)]
  | dict _ ih =>
    rcases Nat.lt_or_ge 4 depth with hd | hd
    · rw [scrubValue_deep hd, scrubValue_deep hd]
    · rw [scrubValue_dict hd, scrubValue_dict hd,
        scrubDict_scrubDict fun kv hkv => ih kv hkv (depth + 1)]

end Scrubbing

end PixelForge
