import Mathlib.Data.List.Forall2

/-! # Anchored patterns of counted character classes

Python's `re` for patterns without choices: `^`, `$` and classes with a count. `^` holds at the start of
the text only, `$` at its end and before a newline that ends it. `isMatch_anchored` says which texts a
pattern between the two anchors matches.
-/
set_option autoImplicit false

namespace PixelForge.Patterns

inductive Piece
  | start
  | stop
  | chars (n : Nat) (p : Char → Bool)

/-- The text that is left after a match from here. The flag tells whether this is the start of the text. -/
def matchFrom : List Piece → Bool → List Char → Option (List Char)
  | [], _, cs => some cs
  | .start :: pieces, atStart, cs => if atStart then matchFrom pieces atStart cs else none
  | .stop :: pieces, atStart, cs =>
    if cs = [] ∨ cs = ['\n'] then matchFrom pieces atStart cs else none
  | .chars n p :: pieces, atStart, cs =>
    if n ≤ cs.length ∧ (cs.take n).all p then
      matchFrom pieces (atStart && n == 0) (cs.drop n)
    else none

/-- `pattern.match(text)`, as a truth value. -/
def isMatch (pieces : List Piece) (text : String) : Bool := (matchFrom pieces true text.toList).isSome

/-! ## `IGNORECASE` -/

/-- The letters that are a case of an ASCII letter without being one. -/
def strayCases : List (Char × Char) :=
  [('\u0130', 'i'), ('\u0131', 'i'), ('\u017F', 's'), ('\u212A', 'k')]

/-- A class of ASCII characters, in either case. -/
def ignoreCase (p : Char → Bool) (c : Char) : Bool :=
  p c || p c.toLower || p c.toUpper || (strayCases.lookup c).any p

/-! ## Between anchors -/

/-- A class for each character. -/
def slots (cells : List (Nat × (Char → Bool))) : List (Char → Bool) :=
  cells.flatMap fun cell => List.replicate cell.1 cell.2

/-- Each character is in its class. -/
abbrev Fits (ps : List (Char → Bool)) (cs : List Char) : Prop := List.Forall₂ (fun p c => p c = true) ps cs

section Anchored

variable {p : Char → Bool} {ps : List (Char → Bool)} {cs : List Char}

theorem fits_replicate_append {n : Nat} : Fits (List.replicate n p ++ ps) cs ↔
    (n ≤ cs.length ∧ (cs.take n).all p = true) ∧ Fits ps (cs.drop n) := by
  induction n generalizing cs with
  | zero => simp
  | succ n ih =>
    cases cs with
    | nil => simp [List.replicate_succ]
    | cons c cs =>
      have hcons : Fits (List.replicate (n + 1) p ++ ps) (c :: cs) ↔
          p c = true ∧ Fits (List.replicate n p ++ ps) cs := by
        rw [List.replicate_succ, List.cons_append]
        exact List.forall₂_cons
      rw [hcons, ih, List.length_cons, Nat.add_le_add_iff_right, List.take_succ_cons, List.all_cons,
        Bool.and_eq_true, List.drop_succ_cons]
      tauto

theorem matchFrom_cells (cells : List (Nat × (Char → Bool))) (atStart : Bool) :
    (matchFrom (cells.map (fun cell => .chars cell.1 cell.2) ++ [.stop]) atStart cs).isSome = true ↔
      ∃ body, Fits (slots cells) body ∧ (cs = body ∨ cs = body ++ ['\n']) := by
  induction cells generalizing atStart cs with
  | nil =>
    have hnil : ∀ body, Fits (slots []) body ↔ body = [] := fun body => List.forall₂_nil_left_iff
    simp only [hnil, exists_eq_left, List.nil_append, List.map_nil, matchFrom]
    split <;> simp_all
  | cons cell cells ih =>
    obtain ⟨n, p⟩ := cell
    have hslots : slots ((n, p) :: cells) = List.replicate n p ++ slots cells := rfl
    rw [List.map_cons, List.cons_append, matchFrom, hslots]
    constructor
    · intro h
      split at h
      · rename_i hcell
        obtain ⟨body, hbody, hrest⟩ := (ih _).mp h
        have htake : (cs.take n).length = n := List.length_take_of_le hcell.1
        refine ⟨cs.take n ++ body, fits_replicate_append.mpr ⟨⟨by simp [htake], ?_⟩, ?_⟩, ?_⟩
        · rw [List.take_left' htake]
          exact hcell.2
        · rw [List.drop_left' htake]
          exact hbody
        · rw [List.append_assoc]
          obtain hrest | hrest := hrest
          · exact .inl (by rw [← hrest, List.take_append_drop])
          · exact .inr (by rw [← hrest, List.take_append_drop])
      · cases h
    · rintro ⟨body, hfits, hcs⟩
      obtain ⟨hcell, hbody⟩ := fits_replicate_append.mp hfits
      have htake : cs.take n = body.take n ∧ n ≤ cs.length := by
        obtain rfl | rfl := hcs
        · exact ⟨rfl, hcell.1⟩
        · rw [List.take_append_of_le_length hcell.1, List.length_append]
          exact ⟨rfl, by omega⟩
      rw [if_pos ⟨htake.2, htake.1 ▸ hcell.2⟩, ih]
      refine ⟨body.drop n, hbody, ?_⟩
      obtain rfl | rfl := hcs
      · exact .inl rfl
      · exact .inr (List.drop_append_of_le_length hcell.1)

/-- **What a pattern between `^` and `$` matches**: the texts of its form, with or without a newline at
the end. -/
theorem isMatch_anchored (cells : List (Nat × (Char → Bool))) (text : String) :
    isMatch (.start :: (cells.map (fun cell => .chars cell.1 cell.2) ++ [.stop])) text = true ↔
      ∃ body, Fits (slots cells) body ∧ (text.toList = body ∨ text.toList = body ++ ['\n']) :=
  matchFrom_cells cells true

end Anchored

end PixelForge.Patterns
