import PixelForge.Api.Protocol
import PixelForge.Formats.Patterns

/-! # Job ids

`_UUID_PATTERN` as a pattern, and the ids that `is_valid_job_id` accepts: those of the form `JobIdForm`,
and those of this form with a newline after them.
-/
set_option autoImplicit false

namespace PixelForge
open Effects Patterns JobService

/-! ## The pattern -/

/-- `[0-9a-f]`. -/
def lowerHex (c : Char) : Bool := ('0' ≤ c && c ≤ '9') || ('a' ≤ c && c ≤ 'f')

/-- A hexadecimal digit of either case. -/
def isHexDigit (c : Char) : Bool := lowerHex c || ('A' ≤ c && c ≤ 'F')

/-- `[0-9a-f]{n}` and `-`, under `re.IGNORECASE`. -/
def hexes (n : Nat) : Nat × (Char → Bool) := (n, ignoreCase lowerHex)

def hyphen : Nat × (Char → Bool) := (1, ignoreCase (· == '-'))

/-- `_UUID_PATTERN` between its anchors. -/
def uuidCells : List (Nat × (Char → Bool)) :=
  [hexes 8, hyphen, hexes 4, hyphen, hexes 4, hyphen, hexes 4, hyphen, hexes 12]

def uuidPattern : List Piece :=
  .start :: (uuidCells.map (fun cell => .chars cell.1 cell.2) ++ [.stop])

/-- Where an id has its hyphens. -/
def isHyphenIndex (i : Nat) : Bool := i == 8 || i == 13 || i == 18 || i == 23

/-- 36 characters, hyphens at 8, 13, 18 and 23 and hexadecimal digits elsewhere. -/
structure JobIdForm (cs : List Char) : Prop where
  length : cs.length = 36
  chars : ∀ (i : Nat) (h : i < cs.length), if isHyphenIndex i then cs[i] = '-' else isHexDigit cs[i] = true

theorem ignoreCase_of_ascii : ∀ n < 128,
    ignoreCase lowerHex (Char.ofNat n) = isHexDigit (Char.ofNat n) ∧
      ignoreCase (· == '-') (Char.ofNat n) = (Char.ofNat n == '-') := by
  decide +kernel

/-- Neither class has a character outside ASCII, in any case. -/
theorem ignoreCase_beyond {p : Char → Bool} {c : Char} (hc : 128 ≤ c.toNat)
    (hp : ∀ d, p d = true → d.toNat < 128) (hstray : ∀ kv ∈ strayCases, p kv.2 = false) :
    ignoreCase p c = false := by
  have hnot : p c = false := Bool.eq_false_iff.mpr fun h => absurd (hp c h) (by omega)
  have hle : ∀ d : Char, d.toNat < 128 → ¬ c.val ≤ d.val := fun d hd h => by
    have hnat : c.toNat ≤ d.toNat := UInt32.le_iff_toNat_le.mp h
    omega
  have hlower : c.toLower = c := dif_neg fun h => hle 'Z' (by decide) h.2
  have hupper : c.toUpper = c := dif_neg fun h => hle 'z' (by decide) h.2
  have hlookup : (strayCases.lookup c).any p = false := by
    cases h : strayCases.lookup c with
    | none => rfl
    | some d =>
      obtain ⟨l₁, l₂, hl, -⟩ := List.lookup_eq_some_iff.mp h
      exact hstray (c, d) (by rw [hl]; simp)
  rw [ignoreCase, hlower, hupper, hnot, hlookup]
  rfl

theorem lowerHex_ascii {c : Char} (h : lowerHex c = true) : c.toNat < 128 := by
  simp only [lowerHex, Bool.or_eq_true, Bool.and_eq_true, decide_eq_true_eq] at h
  have hle : ∀ d : Char, c ≤ d → c.toNat ≤ d.toNat := fun d h => UInt32.le_iff_toNat_le.mp h
  obtain ⟨-, h⟩ | ⟨-, h⟩ := h
  · exact lt_of_le_of_lt (hle '9' h) (by decide)
  · exact lt_of_le_of_lt (hle 'f' h) (by decide)

theorem isHexDigit_ascii {c : Char} (h : isHexDigit c = true) : c.toNat < 128 := by
  obtain h | h := Bool.or_eq_true_iff.mp h
  · exact lowerHex_ascii h
  · rw [Bool.and_eq_true, decide_eq_true_eq, decide_eq_true_eq] at h
    exact lt_of_le_of_lt (UInt32.le_iff_toNat_le.mp h.2 : c.toNat ≤ 'F'.toNat) (by decide)

theorem hyphen_ascii {c : Char} (h : (c == '-') = true) : c.toNat < 128 := by
  rw [eq_of_beq h]
  decide

theorem ignoreCase_classes (c : Char) :
    ignoreCase lowerHex c = isHexDigit c ∧ ignoreCase (· == '-') c = (c == '-') := by
  by_cases h : c.toNat < 128
  · have hc := ignoreCase_of_ascii c.toNat h
    rwa [Char.ofNat_toNat] at hc
  · have hge : 128 ≤ c.toNat := Nat.le_of_not_lt h
    constructor
    · rw [ignoreCase_beyond hge (fun _ => lowerHex_ascii) (by decide), eq_comm, Bool.eq_false_iff]
      exact fun hc => h (isHexDigit_ascii hc)
    · rw [ignoreCase_beyond hge (fun _ => hyphen_ascii) (by decide), eq_comm, Bool.eq_false_iff]
      exact fun hc => h (hyphen_ascii hc)

/-! ## What is accepted -/

section Form

variable {cs : List Char}

theorem slots_uuidCells : slots uuidCells = (List.range 36).map fun i =>
    if isHyphenIndex i then ignoreCase (· == '-') else ignoreCase lowerHex := rfl

theorem fits_uuidCells : Fits (slots uuidCells) cs ↔ JobIdForm cs := by
  rw [slots_uuidCells, Fits, List.forall₂_map_left_iff, List.forall₂_iff_get]
  have hclass : ∀ (i : Nat) (c : Char),
      (if isHyphenIndex i then ignoreCase (· == '-') else ignoreCase lowerHex) c = true ↔
        if isHyphenIndex i then c = '-' else isHexDigit c = true := by
    intro i c
    split
    · rw [(ignoreCase_classes c).2, beq_iff_eq]
    · rw [(ignoreCase_classes c).1]
  simp only [List.length_range, List.get_eq_getElem, List.getElem_range, hclass]
  constructor
  · rintro ⟨hlength, hchars⟩
    exact ⟨hlength.symm, fun i h => hchars i (hlength ▸ h) h⟩
  · intro h
    exact ⟨h.length.symm, fun i _ hi => h.chars i hi⟩

/-- `_UUID_PATTERN.match`: a newline after the id is not looked at. -/
theorem isMatch_uuidPattern (s : String) : isMatch uuidPattern s = true ↔
    JobIdForm s.toList ∨ ∃ body, JobIdForm body ∧ s.toList = body ++ ['\n'] := by
  rw [uuidPattern, isMatch_anchored]
  simp only [fits_uuidCells, and_or_left, exists_or, exists_eq_right']

theorem all_iff_form : (cs.length == 36 && cs.zipIdx.all fun (c, i) =>
    if i == 8 || i == 13 || i == 18 || i == 23 then c == '-'
    else ('0' ≤ c && c ≤ '9') || ('a' ≤ c && c ≤ 'f') || ('A' ≤ c && c ≤ 'F')) = true ↔
      JobIdForm cs := by
  have hchar : ∀ (i : Nat) (c : Char), (if i == 8 || i == 13 || i == 18 || i == 23 then c == '-'
      else ('0' ≤ c && c ≤ '9') || ('a' ≤ c && c ≤ 'f') || ('A' ≤ c && c ≤ 'F')) = true ↔
        if isHyphenIndex i then c = '-' else isHexDigit c = true := by
    intro i c
    unfold isHyphenIndex
    split
    · exact beq_iff_eq
    · rfl
  simp only [Bool.and_eq_true, beq_iff_eq, List.all_eq_true, Prod.forall, List.mem_zipIdx_iff_getElem?,
    hchar]
  constructor
  · rintro ⟨hlength, hall⟩
    exact ⟨hlength, fun i h => hall _ i (List.getElem?_eq_getElem h)⟩
  · intro h
    refine ⟨h.length, fun c i hc => ?_⟩
    obtain ⟨hi, rfl⟩ := List.getElem?_eq_some_iff.mp hc
    exact h.chars i hi

/-- **`is_valid_job_id` is the match of the pattern.** -/
theorem isValidJobId_eq_isMatch (s : String) : isValidJobId s = isMatch uuidPattern s := by
  rw [Bool.eq_iff_iff, isMatch_uuidPattern]
  unfold isValidJobId
  dsimp only
  split
  · rename_i h
    obtain ⟨hlength, hlast⟩ := h
    obtain ⟨body, hbody⟩ := List.getLast?_eq_some_iff.mp hlast
    rw [hbody, List.dropLast_concat, all_iff_form]
    constructor
    · exact fun h => .inr ⟨body, h, rfl⟩
    · rintro (h | ⟨body', h, heq⟩)
      · have := h.length
        rw [← hbody] at this
        omega
      · rw [(List.append_inj' heq rfl).1]
        exact h
  · rename_i hnot
    rw [all_iff_form]
    refine ⟨.inl, fun h => h.resolve_right ?_⟩
    rintro ⟨body, h, heq⟩
    refine hnot ⟨?_, ?_⟩
    · rw [heq, List.length_append, h.length]
      rfl
    · rw [heq]
      exact List.getLast?_concat

theorem form_of_isUuid {s : String} (h : isUuid s = true) : JobIdForm s.toList := by
  refine all_iff_form.mp ?_
  obtain ⟨hlength, hall⟩ := Bool.and_eq_true_iff.mp h
  refine Bool.and_eq_true_iff.mpr ⟨hlength, List.all_eq_true.mpr fun ci hci => ?_⟩
  have hci := List.all_eq_true.mp hall ci hci
  obtain ⟨c, i⟩ := ci
  dsimp only at hci ⊢
  split at hci
  · rename_i hi
    rw [if_pos hi]
    exact hci
  · rename_i hi
    rw [if_neg hi, hci]
    rfl

/-! ## The ids of the service -/

section Service

variable {ext : Externals} {config : Config} {s : String} {h : History}

/-- A run of the service, whatever its requests are answered. -/
abbrev ServiceRun {α : Type} (ext : Externals) (m : Py α) (p : Py α) (h : History) : Prop :=
  Steps (recorder (fun _ _ => True) (Cloud.Answers ext)) m [] p h

/-- What `is_valid_job_id` is for: it accepts the ids of the form, so that only these are looked up, and
the ids of new jobs are among them. -/
structure JobIdChecked (ext : Externals) (config : Config) (s : String) : Prop where
  exact : isValidJobId s = true ↔ JobIdForm s.toList
  lookups : ∀ p h, ServiceRun ext ((JobService.build config).getJob ext s) p h →
    ∀ j r, (⟨.getItem j, r⟩ : Ev) ∈ h → JobIdForm j.toList
  generated : ∀ u p h, ServiceRun ext ((JobService.build config).createJob ext u) p h → drawOk s ∈ h →
    isValidJobId s = true

/-- `get_job` looks up the id it was given, if it is valid. -/
theorem getJob_asks {p : Py (Option JobRecord)}
    (hrun : ServiceRun ext ((JobService.build config).getJob ext s) p h) {j : String}
    {r : Request.Resp (.getItem j)} (hmem : (⟨.getItem j, r⟩ : Ev) ∈ h) :
    j = s ∧ isValidJobId s = true := by
  have hkeeps : Fallible.Keeps (recorder (fun _ q => ∀ j, q = .getItem j → j = s ∧ isValidJobId s = true)
      (Cloud.Answers ext)) (fun _ => True) ((JobService.build config).getJob ext s) := by
    unfold JobService.getJob
    split
    · rename_i hvalid
      have hask : ∀ q : Request, (∀ j, q = .getItem j → j = s ∧ isValidJobId s = true) →
          Fallible.Keeps (recorder (fun _ q => ∀ j, q = .getItem j → j = s ∧ isValidJobId s = true)
            (Cloud.Answers ext)) (fun _ => True) (ask q) := fun q hq t _ =>
        (wp_ask q _ _ t).mpr ⟨hq, fun r _ _ => by cases r <;> trivial⟩
      refine .bind (keeps_callWithRetry (hask (.getItem s) ?_) (fun q hq => hask q ?_) _ _ _) fun item => ?_
      · intro j hj
        cases hj
        exact ⟨rfl, hvalid⟩
      · rintro j rfl
        cases hq
      · split
        · exact .pure _
        · exact .raise _
    · exact .pure _
  exact hrun.asked (hkeeps [] trivial) hmem j rfl

theorem isUuid_of_answers (ha : Cloud.Answers ext .uuid4 (.ok s)) : isUuid s = true := by
  obtain ⟨c, ch, c', hserve⟩ := ha.ok
  simp only [Cloud.serve] at hserve
  split at hserve
  · cases hserve
  · rename_i hfresh
    obtain ⟨hs, -⟩ := Prod.mk.inj (Option.some.inj hserve)
    rw [← Except.ok.inj hs]
    exact Bool.eq_true_of_not_eq_false (not_or.mp hfresh).1

/-- **The check is exact for every id but one of the form with a newline after it.** -/
theorem jobIdChecked_iff (ext : Externals) (config : Config) (s : String) : JobIdChecked ext config s ↔
    ¬ ∃ body, JobIdForm body ∧ s.toList = body ++ ['\n'] := by
  have hvalid := isMatch_uuidPattern s
  rw [← isValidJobId_eq_isMatch] at hvalid
  constructor
  · rintro h ⟨body, hbody, hs⟩
    have hform := h.exact.mp (hvalid.mpr (.inr ⟨body, hbody, hs⟩))
    have hlength := hform.length
    rw [hs, List.length_append, hbody.length] at hlength
    cases hlength
  · intro hnone
    have hexact : isValidJobId s = true ↔ JobIdForm s.toList :=
      hvalid.trans ⟨fun h => h.resolve_right hnone, .inl⟩
    refine ⟨hexact, fun p h hrun j r hmem => ?_, fun u p h hrun hmem => ?_⟩
    · obtain ⟨rfl, hj⟩ := getJob_asks hrun hmem
      exact hexact.mp hj
    · have ha := hrun.answered (List.forall_mem_nil _) _ hmem
      exact hexact.mpr (form_of_isUuid (isUuid_of_answers ha))

/-- The id of a job with a newline after it is looked up. -/
theorem newline_accepted : isValidJobId "6ba7b810-9dad-11d1-80b4-00c04fd430c8\n" = true ∧
    ¬ JobIdForm "6ba7b810-9dad-11d1-80b4-00c04fd430c8\n".toList := by
  refine ⟨by decide +kernel, fun h => ?_⟩
  have hlength := h.length
  revert hlength
  decide +kernel

end Service

end Form

end PixelForge
