import Mathlib.Data.List.Infix

/-! # Access policies

A policy is a list of statements, each of which allows some actions on some resources. Actions are
patterns in which case does not matter, resources are patterns in which it does; `*` stands for any
text and `?` for any one character. What no statement allows is denied.
-/
set_option autoImplicit false

namespace PixelForge.Policies

/-- Whether the text has the form of the pattern. -/
def isGlob : List Char → List Char → Bool
  | [], text => text.isEmpty
  | '*' :: pattern, text => text.tails.any fun rest => isGlob pattern rest
  | _ :: _, [] => false
  | p :: pattern, c :: text => (p == '?' || p == c) && isGlob pattern text

structure Statement where
  actions : List String
  resources : List String
deriving Repr

abbrev Policy : Type := List Statement

def lowered (s : String) : List Char := s.toList.map Char.toLower

def Statement.allows (statement : Statement) (action resource : String) : Bool :=
  (statement.actions.any fun pattern => isGlob (lowered pattern) (lowered action)) &&
    statement.resources.any fun pattern => isGlob pattern.toList resource.toList

def Policy.allows (policy : Policy) (action resource : String) : Bool :=
  List.any policy fun statement => statement.allows action resource

/-! ## Patterns -/

section Globs

variable {pattern text : List Char} {c : Char}

theorem isGlob_star : isGlob ('*' :: pattern) text = true ↔
    ∃ skipped rest, text = skipped ++ rest ∧ isGlob pattern rest = true := by
  rw [isGlob, List.any_eq_true]
  constructor
  · rintro ⟨rest, hrest, h⟩
    obtain ⟨skipped, hs⟩ := (List.mem_tails _ _).mp hrest
    exact ⟨skipped, rest, hs.symm, h⟩
  · rintro ⟨skipped, rest, rfl, h⟩
    exact ⟨rest, (List.mem_tails _ _).mpr (List.suffix_append _ _), h⟩

theorem isGlob_everything (text : List Char) : isGlob ['*'] text = true :=
  isGlob_star.mpr ⟨text, [], (List.append_nil text).symm, rfl⟩

theorem isGlob_cons (hc : c ≠ '*') : isGlob (c :: pattern) text = true ↔
    ∃ c' rest, text = c' :: rest ∧ (c = '?' ∨ c = c') ∧ isGlob pattern rest = true := by
  cases text with
  | nil =>
    refine iff_of_false (fun h => ?_) nofun
    unfold isGlob at h
    split at h <;> simp_all
  | cons c' text =>
    rw [isGlob.eq_4 c pattern c' text (by simpa using hc), Bool.and_eq_true, Bool.or_eq_true, beq_iff_eq,
      beq_iff_eq]
    constructor
    · rintro ⟨hcc, h⟩
      exact ⟨c', text, rfl, hcc, h⟩
    · rintro ⟨c'', rest, heq, hcc, h⟩
      obtain ⟨rfl, rfl⟩ := List.cons.inj heq
      exact ⟨hcc, h⟩

/-- A pattern fits its own text, whatever wildcards it has. -/
theorem isGlob_append (common : List Char) (h : isGlob pattern text = true) :
    isGlob (common ++ pattern) (common ++ text) = true := by
  induction common with
  | nil => exact h
  | cons c common ih =>
    by_cases hc : c = '*'
    · subst hc
      exact isGlob_star.mpr ⟨['*'], _, rfl, ih⟩
    · exact (isGlob_cons hc).mpr ⟨c, _, rfl, .inr rfl, ih⟩

theorem isGlob_self (text : List Char) : isGlob text text = true := by
  have h : isGlob (text ++ []) (text ++ []) = true := isGlob_append text rfl
  rwa [List.append_nil] at h

/-- Where a pattern has no wildcards, its text is literal. -/
theorem isGlob_literal {common : List Char} (hc : ∀ c ∈ common, c ≠ '*' ∧ c ≠ '?') :
    isGlob (common ++ pattern) text = true ↔ ∃ rest, text = common ++ rest ∧ isGlob pattern rest = true := by
  induction common generalizing text with
  | nil => exact ⟨fun h => ⟨text, rfl, h⟩, fun ⟨rest, hrest, h⟩ => by rwa [hrest]⟩
  | cons c common ih =>
    obtain ⟨⟨hstar, hmark⟩, hrest⟩ := List.forall_mem_cons.mp hc
    rw [List.cons_append, isGlob_cons hstar]
    constructor
    · rintro ⟨c', rest, rfl, hcc, h⟩
      obtain ⟨rest', rfl, h'⟩ := (ih hrest).mp h
      exact ⟨rest', by rw [hcc.resolve_left hmark, List.cons_append], h'⟩
    · rintro ⟨rest, rfl, h⟩
      exact ⟨c, common ++ rest, rfl, .inr rfl, (ih hrest).mpr ⟨rest, rfl, h⟩⟩

end Globs

/-! ## What a policy allows -/

theorem Policy.allows_iff {policy : Policy} {action resource : String} :
    policy.allows action resource = true ↔ ∃ statement ∈ policy,
      (∃ pattern ∈ statement.actions, isGlob (lowered pattern) (lowered action) = true) ∧
        ∃ pattern ∈ statement.resources, isGlob pattern.toList resource.toList = true := by
  simp only [Policy.allows, Statement.allows, List.any_eq_true, Bool.and_eq_true]

/-- An action that a statement names, in any case, on what fits one of its resources. -/
theorem Policy.allows_of_mem {policy : Policy} {statement : Statement} {name action pattern resource : String}
    (hstatement : statement ∈ policy) (hname : name ∈ statement.actions)
    (hcase : lowered name = lowered action) (hpattern : pattern ∈ statement.resources)
    (hfits : isGlob pattern.toList resource.toList = true) : policy.allows action resource = true :=
  Policy.allows_iff.mpr ⟨statement, hstatement, ⟨name, hname, hcase ▸ isGlob_self _⟩, pattern, hpattern,
    hfits⟩

end PixelForge.Policies
