import Mathlib.Data.Bool.AllAny
import PixelForge.Api.Service

/-! # Filenames

`sanitise_filename` deletes unsafe characters, strips, removes `..` and truncates, in this order and
once. A single removal leaves no `..` (`removeDoubleDots_no_pair`), so every name it returns is safe.
It is not a normal form: with the dots goes what kept a whitespace character off an end
(`Exposed`).
-/
set_option autoImplicit false

namespace PixelForge

/-! ## `str.strip` -/

/-- No whitespace character at an end. -/
structure Trimmed (cs : List Char) : Prop where
  head : ∀ c ∈ cs.head?, isPySpace c = false
  last : ∀ c ∈ cs.getLast?, isPySpace c = false

section Strip

variable {cs : List Char}

theorem trimmed_strip (cs : List Char) : Trimmed (strip cs) := by
  constructor
  · intro c hc
    obtain ⟨rest, hrest⟩ := List.rdropWhile_prefix isPySpace (cs.dropWhile isPySpace)
    have hhead : (cs.dropWhile isPySpace).head? = some c := by
      rw [← hrest, List.head?_append, ← strip, Option.mem_def.mp hc, Option.some_or]
    have hnot := List.head?_dropWhile_not isPySpace cs
    rw [hhead] at hnot
    exact hnot
  · intro c hc
    obtain ⟨hne, hlast⟩ := List.mem_getLast?_eq_getLast hc
    have hnot := List.rdropWhile_last_not isPySpace (cs.dropWhile isPySpace) hne
    rw [hlast]
    exact Bool.eq_false_iff.mpr hnot

theorem strip_of_trimmed (h : Trimmed cs) : strip cs = cs := by
  have hhead : cs.dropWhile isPySpace = cs := by
    cases cs with
    | nil => rfl
    | cons c cs => exact List.dropWhile_cons_of_neg (Bool.eq_false_iff.mp (h.head c rfl))
  rw [strip, hhead, List.rdropWhile_eq_self_iff]
  exact fun hne => Bool.eq_false_iff.mp (h.last _ (List.getLast?_eq_getLast_of_ne_nil hne))

end Strip

/-! ## The removal of `..` -/

section Dots

variable {cs p q a b : List Char} {c w : Char}

theorem removeDoubleDots_cons (hc : c ≠ '.') (cs : List Char) :
    removeDoubleDots (c :: cs) = c :: removeDoubleDots cs :=
  removeDoubleDots.eq_2 c cs fun _ hdot _ => hc hdot

/-- A character that is no dot separates what is before it from what is after it. -/
theorem removeDoubleDots_append (hw : w ≠ '.') (p q : List Char) :
    removeDoubleDots (p ++ w :: q) = removeDoubleDots p ++ w :: removeDoubleDots q := by
  fun_induction removeDoubleDots p with
  | case1 rest ih => exact ih
  | case2 c rest hpair ih =>
    rw [List.cons_append, List.cons_append, ← ih]
    refine removeDoubleDots.eq_2 c _ fun rest' hc hrest => ?_
    cases rest with
    | nil => exact hw (List.cons.inj hrest).1
    | cons d rest =>
      obtain ⟨rfl, -⟩ := List.cons.inj hrest
      exact hpair rest hc rfl
  | case3 => exact removeDoubleDots_cons hw q

/-- A kept character that is no dot, traced back. -/
theorem removeDoubleDots_split (h : removeDoubleDots cs = a ++ w :: b) (hw : w ≠ '.') :
    ∃ p q, cs = p ++ w :: q ∧ removeDoubleDots p = a ∧ removeDoubleDots q = b := by
  fun_induction removeDoubleDots cs generalizing a with
  | case1 rest ih =>
    obtain ⟨p, q, rfl, hp, hq⟩ := ih h
    exact ⟨'.' :: '.' :: p, q, rfl, hp, hq⟩
  | case2 c rest hpair ih =>
    cases a with
    | nil =>
      obtain ⟨rfl, hrest⟩ := List.cons.inj h
      exact ⟨[], rest, rfl, rfl, hrest⟩
    | cons d a =>
      obtain ⟨rfl, hrest⟩ := List.cons.inj h
      obtain ⟨p, q, rfl, hp, hq⟩ := ih hrest
      refine ⟨c :: p, q, rfl, ?_, hq⟩
      rw [removeDoubleDots.eq_2 c p fun rest' hc hp' => hpair (rest' ++ w :: q) hc (by rw [hp']; rfl), hp]
  | case3 => simp at h

theorem removeDoubleDots_eq_nil :
    removeDoubleDots cs = [] ↔ ∃ k, cs = List.replicate (2 * k) '.' := by
  fun_induction removeDoubleDots cs with
  | case1 rest ih =>
    rw [ih]
    constructor
    · rintro ⟨k, rfl⟩
      exact ⟨k + 1, rfl⟩
    · rintro ⟨k, hk⟩
      cases k with
      | zero => cases hk
      | succ k => exact ⟨k, (List.cons.inj (List.cons.inj hk).2).2⟩
  | case2 c rest hpair ih =>
    constructor
    · intro h
      cases h
    · rintro ⟨k, hk⟩
      cases k with
      | zero => cases hk
      | succ k => exact absurd (List.cons.inj hk).2 (hpair _ (List.cons.inj hk).1)
  | case3 => exact ⟨fun _ => ⟨0, rfl⟩, fun _ => rfl⟩

/-- **One pass leaves no two dots in a row**: what separated two runs still does. -/
theorem removeDoubleDots_no_pair (cs : List Char) : ¬ ['.', '.'] <:+: removeDoubleDots cs := by
  fun_induction removeDoubleDots cs with
  | case1 rest ih => exact ih
  | case2 c rest hpair ih =>
    rw [List.infix_cons_iff]
    rintro (hpre | hin)
    · obtain ⟨rfl, hdot⟩ := List.cons_prefix_cons.mp hpre
      cases rest with
      | nil => simp [removeDoubleDots] at hdot
      | cons d rest =>
        have hd : d ≠ '.' := fun h => hpair rest rfl (h ▸ rfl)
        rw [removeDoubleDots_cons hd, List.cons_prefix_cons] at hdot
        exact hd hdot.1.symm
    · exact ih hin
  | case3 => simp

theorem removeDoubleDots_of_no_pair (h : ¬ ['.', '.'] <:+: cs) : removeDoubleDots cs = cs := by
  fun_induction removeDoubleDots cs with
  | case1 rest ih => exact absurd ⟨[], rest, rfl⟩ h
  | case2 c rest hpair ih => rw [ih fun hin => h (List.infix_cons hin)]
  | case3 => rfl

theorem mem_removeDoubleDots (h : c ∈ removeDoubleDots cs) : c ∈ cs := by
  fun_induction removeDoubleDots cs with
  | case1 rest ih => exact List.mem_cons_of_mem _ (List.mem_cons_of_mem _ (ih h))
  | case2 d rest hpair ih =>
    obtain rfl | h := List.mem_cons.mp h
    · exact List.mem_cons_self
    · exact List.mem_cons_of_mem _ (ih h)
  | case3 => exact h

end Dots

/-! ## Safe names -/

/-- The characters that are left of a filename. -/
def survivors (cs : List Char) : List Char :=
  (removeDoubleDots (strip (cs.filter fun c => !isUnsafeFilenameChar c))).take 255

/-- What may be stored and logged. -/
structure SafeFilename (name : String) : Prop where
  nonempty : name ≠ ""
  length_le : name.length ≤ 255
  characters : ∀ c ∈ name.toList, 31 < c.toNat ∧ c.toNat ≠ 127 ∧ c ≠ '/' ∧ c ≠ '\\'
  no_parent : ¬ ['.', '.'] <:+: name.toList

theorem sanitiseFilename_some (s : String) : sanitiseFilename (some s) =
    if survivors s.toList = [] then "upload" else String.ofList (survivors s.toList) := by
  by_cases hs : s = ""
  · subst hs
    rfl
  · rw [sanitiseFilename, if_neg hs]
    rfl

theorem not_unsafe_iff {c : Char} : isUnsafeFilenameChar c = false ↔
    31 < c.toNat ∧ c.toNat ≠ 127 ∧ c ≠ '/' ∧ c ≠ '\\' := by
  simp only [isUnsafeFilenameChar, Bool.or_eq_false_iff, decide_eq_false_iff_not, beq_eq_false_iff_ne,
    Nat.not_lt, and_assoc]
  rfl

theorem safe_of_mem_survivors {cs : List Char} {c : Char} (h : c ∈ survivors cs) :
    isUnsafeFilenameChar c = false := by
  have hmem := mem_strip (mem_removeDoubleDots (List.mem_of_mem_take h))
  have hsafe := List.of_mem_filter hmem
  rwa [Bool.not_eq_true'] at hsafe

/-- **Every sanitised filename is safe.** -/
theorem sanitiseFilename_safe (filename : Option String) :
    SafeFilename (sanitiseFilename filename) := by
  have hupload : SafeFilename "upload" := by
    have hplain : (("upload".toList).all fun c =>
        decide (31 < c.toNat ∧ c.toNat ≠ 127 ∧ c ≠ '/' ∧ c ≠ '\\')) = true := by
      decide
    exact ⟨by decide, by decide, List.all_iff_forall_prop.mp hplain, by decide⟩
  cases filename with
  | none => exact hupload
  | some s =>
    rw [sanitiseFilename_some]
    split
    · exact hupload
    · rename_i hne
      refine ⟨fun hempty => hne ?_, ?_, fun c hc => ?_, ?_⟩
      · rw [← String.toList_ofList (l := survivors s.toList), hempty]
        rfl
      · rw [← String.length_toList, String.toList_ofList, survivors, List.length_take]
        exact Nat.min_le_left _ _
      · rw [String.toList_ofList] at hc
        exact not_unsafe_iff.mp (safe_of_mem_survivors hc)
      · rw [String.toList_ofList]
        exact fun hin => removeDoubleDots_no_pair _ (hin.trans (List.take_prefix _ _).isInfix)

/-! ## Normal form -/

/-- Dots that the removal takes, all of them. -/
def Vanishing (cs : List Char) : Prop := ∃ k, cs = List.replicate (2 * k) '.'

/-- Of the stripped name, a whitespace character that comes to stand first, or last: after `p`, of
which nothing is left, or before `q`, of which nothing is left or counts any more. -/
def Exposed (cs : List Char) : Prop :=
  ∃ p w q, cs = p ++ w :: q ∧ isPySpace w = true ∧
    (Vanishing p ∨ (removeDoubleDots p).length = 254 ∨
      (removeDoubleDots p).length < 254 ∧ Vanishing q)

/-- What the name of a normal form is. -/
structure NormalForm (s : String) : Prop where
  visible : ∃ c ∈ (sanitiseFilename (some s)).toList, isPySpace c = false
  trimmed : Trimmed (sanitiseFilename (some s)).toList
  fixed : sanitiseFilename (some (sanitiseFilename (some s))) = sanitiseFilename (some s)
  placeholder : (∀ c ∈ s.toList, isPySpace c = true) ∨ (∀ c ∈ s.toList, c = '.') →
    sanitiseFilename (some s) = "upload"

section Normal

variable {cs : List Char} {s : String}

theorem trimmed_nil : Trimmed [] := by
  constructor <;>
  · intro c hc
    cases hc

theorem trimmed_upload : Trimmed "upload".toList := by
  constructor
  · rintro c ⟨⟩
    decide
  · rintro c ⟨⟩
    decide

theorem ne_dot_of_space {w : Char} (hw : isPySpace w = true) : w ≠ '.' := by
  rintro rfl
  revert hw
  decide

/-- Truncation is what makes the second and the third case of `Exposed` one. -/
theorem take_survivors {p q : List Char} {w : Char}
    (h : p.length = 254 ∨ p.length < 254 ∧ q = []) : (p ++ w :: q).take 255 = p ++ [w] := by
  obtain h | ⟨h, rfl⟩ := h
  · rw [List.take_append, h, List.take_of_length_le (by omega)]
    rfl
  · rw [List.take_of_length_le]
    rw [List.length_append, List.length_singleton]
    omega

/-- What is left has no whitespace at an end exactly when none was exposed. -/
theorem trimmed_survivors_iff : Trimmed (survivors cs) ↔
    ¬ Exposed (strip (cs.filter fun c => !isUnsafeFilenameChar c)) := by
  unfold survivors
  generalize strip (cs.filter fun c => !isUnsafeFilenameChar c) = name
  constructor
  · rintro htrim ⟨p, w, q, rfl, hw, hends⟩
    rw [removeDoubleDots_append (ne_dot_of_space hw)] at htrim
    obtain hp | hq := hends
    · rw [removeDoubleDots_eq_nil.mpr hp] at htrim
      rw [htrim.head w rfl] at hw
      cases hw
    · have hq : (removeDoubleDots p).length = 254 ∨
          (removeDoubleDots p).length < 254 ∧ removeDoubleDots q = [] :=
        hq.imp_right fun h => ⟨h.1, removeDoubleDots_eq_nil.mpr h.2⟩
      rw [take_survivors hq] at htrim
      rw [htrim.last w (List.getLast?_concat)] at hw
      cases hw
  · intro hnone
    by_contra htrim
    have hends : (∃ w ∈ ((removeDoubleDots name).take 255).head?, isPySpace w = true) ∨
        ∃ w ∈ ((removeDoubleDots name).take 255).getLast?, isPySpace w = true := by
      by_contra hnot
      push Not at hnot
      exact htrim ⟨fun w hw => Bool.eq_false_iff.mpr (hnot.1 w hw),
        fun w hw => Bool.eq_false_iff.mpr (hnot.2 w hw)⟩
    have hsplit := List.take_append_drop 255 (removeDoubleDots name)
    obtain ⟨w, hhead, hw⟩ | ⟨w, hlast, hw⟩ := hends
    · obtain ⟨b, hb⟩ := List.head?_eq_some_iff.mp hhead
      rw [hb] at hsplit
      obtain ⟨p, q, rfl, hp, -⟩ := removeDoubleDots_split (a := []) hsplit.symm (ne_dot_of_space hw)
      exact hnone ⟨p, w, q, rfl, hw, .inl (removeDoubleDots_eq_nil.mp hp)⟩
    · obtain ⟨a, ha⟩ := List.getLast?_eq_some_iff.mp hlast
      rw [ha, List.append_assoc] at hsplit
      obtain ⟨p, q, rfl, hp, hq⟩ := removeDoubleDots_split hsplit.symm (ne_dot_of_space hw)
      have hlength := congrArg List.length ha
      rw [List.length_take, List.length_append, List.length_singleton] at hlength
      refine hnone ⟨p, w, q, rfl, hw, .inr ?_⟩
      rw [hp]
      obtain hlt | heq := Nat.lt_or_ge a.length 254
      · refine .inr ⟨hlt, removeDoubleDots_eq_nil.mp ?_⟩
        rw [hq]
        exact List.drop_eq_nil_of_le (by omega)
      · exact .inl (by omega)

theorem survivors_of_trimmed (h : Trimmed (survivors cs)) :
    survivors (survivors cs) = survivors cs := by
  have hsafe : (survivors cs).filter (fun c => !isUnsafeFilenameChar c) = survivors cs :=
    List.filter_eq_self.mpr fun c hc => by rw [safe_of_mem_survivors hc]; rfl
  have hpair : ¬ ['.', '.'] <:+: survivors cs := fun hin =>
    removeDoubleDots_no_pair _ (hin.trans (List.take_prefix _ _).isInfix)
  change (removeDoubleDots (strip ((survivors cs).filter _))).take 255 = survivors cs
  rw [hsafe, strip_of_trimmed h, removeDoubleDots_of_no_pair hpair]
  exact List.take_of_length_le (by rw [survivors, List.length_take]; exact Nat.min_le_left _ _)

theorem strip_dots (n : Nat) : strip (List.replicate n '.') = List.replicate n '.' := by
  refine strip_of_trimmed ⟨fun c hc => ?_, fun c hc => ?_⟩
  · rw [List.eq_of_mem_replicate (List.mem_of_mem_head? hc)]
    rfl
  · rw [List.eq_of_mem_replicate (List.mem_of_mem_getLast? hc)]
    rfl

theorem removeDoubleDots_odd (k : Nat) :
    removeDoubleDots (List.replicate (2 * k + 1) '.') = ['.'] := by
  induction k with
  | zero => rfl
  | succ k ih => exact ih

theorem survivors_dots (n : Nat) :
    survivors (List.replicate n '.') = (removeDoubleDots (List.replicate n '.')).take 255 := by
  rw [survivors, List.filter_eq_self.mpr, strip_dots]
  intro c hc
  rw [List.eq_of_mem_replicate hc]
  rfl

theorem survivors_blank (h : ∀ c ∈ cs, isPySpace c = true) : survivors cs = [] := by
  rw [survivors, strip_eq_nil_iff.mpr fun c hc => h c (List.mem_of_mem_filter hc)]
  rfl

/-- **Sanitising gives a normal form exactly of the names that expose no whitespace** and are not an odd
number of dots. -/
theorem normalForm_iff (s : String) : NormalForm s ↔
    ¬ Exposed (strip (s.toList.filter fun c => !isUnsafeFilenameChar c)) ∧
      ∀ k, s.toList ≠ List.replicate (2 * k + 1) '.' := by
  rw [← trimmed_survivors_iff]
  by_cases hnil : survivors s.toList = []
  · have hout : sanitiseFilename (some s) = "upload" := by
      rw [sanitiseFilename_some, if_pos hnil]
    constructor
    · refine fun _ => ⟨hnil ▸ trimmed_nil, fun k hk => ?_⟩
      rw [hk, survivors_dots, removeDoubleDots_odd] at hnil
      cases hnil
    · refine fun _ => ⟨?_, ?_, ?_, fun _ => hout⟩
      · rw [hout]
        exact ⟨'u', by decide, by decide⟩
      · rw [hout]
        exact trimmed_upload
      · rw [hout]
        rfl
  · have hout : sanitiseFilename (some s) = String.ofList (survivors s.toList) := by
      rw [sanitiseFilename_some, if_neg hnil]
    have hchars : (sanitiseFilename (some s)).toList = survivors s.toList := by
      rw [hout, String.toList_ofList]
    constructor
    · intro h
      refine ⟨hchars ▸ h.trimmed, fun k hk => ?_⟩
      have hdots := h.placeholder (.inr fun c hc => List.eq_of_mem_replicate (hk ▸ hc))
      rw [hout, hk, survivors_dots, removeDoubleDots_odd] at hdots
      revert hdots
      decide
    · rintro ⟨htrim, hodd⟩
      refine ⟨?_, hchars ▸ htrim, ?_, ?_⟩
      · obtain ⟨c, rest, hc⟩ := List.exists_cons_of_ne_nil hnil
        rw [hchars, hc]
        exact ⟨c, List.mem_cons_self, htrim.head c (by rw [hc]; rfl)⟩
      · rw [sanitiseFilename_some, hchars, survivors_of_trimmed htrim, if_neg hnil, hout]
      · rintro (hblank | hdots)
        · exact absurd (survivors_blank hblank) hnil
        · have hrep : s.toList = List.replicate s.toList.length '.' := List.eq_replicate_of_mem hdots
          obtain ⟨k, hk | hk⟩ : ∃ k, s.toList.length = 2 * k ∨ s.toList.length = 2 * k + 1 :=
            ⟨s.toList.length / 2, by omega⟩
          · rw [hrep, survivors_dots, hk, removeDoubleDots_eq_nil.mpr ⟨k, rfl⟩] at hnil
            exact absurd rfl hnil
          · rw [hk] at hrep
            exact absurd hrep (hodd k)

/-- A name with a leading space, which a second pass strips; a blank one; a lone dot. -/
theorem normalForm_fails : (¬ NormalForm ".. a" ∧ ¬ NormalForm ".. .." ∧ ¬ NormalForm "...") ∧
    sanitiseFilename (some ".. a") = " a" ∧ sanitiseFilename (some " a") = "a" ∧
    sanitiseFilename (some ".. ..") = " " ∧ sanitiseFilename (some "...") = "." := by
  have ha : sanitiseFilename (some ".. a") = " a" := by rfl
  have hb : sanitiseFilename (some ".. ..") = " " := by rfl
  have hc : sanitiseFilename (some "...") = "." := by rfl
  refine ⟨⟨fun h => ?_, fun h => ?_, fun h => ?_⟩, ha, by rfl, hb, hc⟩
  · have hhead := h.trimmed.head ' ' (by rw [ha]; rfl)
    cases hhead
  · have hhead := h.trimmed.head ' ' (by rw [hb]; rfl)
    cases hhead
  · have hupload := h.placeholder (.inr (List.all_iff_forall_prop.mp (by decide)))
    rw [hc] at hupload
    revert hupload
    decide

end Normal

end PixelForge
